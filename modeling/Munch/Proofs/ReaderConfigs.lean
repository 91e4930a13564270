import Munch.Proofs.Growth
import Munch.Proofs.OpenedFiles

/-!
# The configuration of a reader

Scanners and sessions are made in four kinds of steps, and all of them take the configuration from their
settings, or the active one where no settings are given (`Workspace.config_of_made`). From then on a reader
keeps it (`Workspace.config_kept`).
-/

namespace Munch

/-- The name and the settings of the scanner or session that a step makes. -/
def Step.constructs? : Step → Option (String × Settings)
  | .newScanner id _ settings | .newSession id _ _ settings | .sessionOver id _ settings
  | .openSession id _ settings => some (id, settings)
  | _ => none

/-- The files that a step opens, to be read in later steps. -/
def Step.paths : Step → List String
  | .openSession _ path _ => [path]
  | .openBatch _ paths _ _ => paths
  | _ => []

/-- The configuration that settings mean while another one is active. -/
def Settings.Means (settings : Settings) (active config : Config) : Prop :=
  match settings with
  | some entries => Config.ofEntries entries = .ok config
  | none => config = active

namespace Source

/-- The configuration of the reader that an action attaches. -/
def Action.config? : Action → Option Config
  | .attach config => some config
  | _ => none

lemma configs_act_eq (s : Source) (a : Action) :
    (s.act a).source.configs = s.configs ++ a.config?.toList := by
  cases a with
  | attach config => exact List.map_append
  | scan j =>
    refine (List.append_nil _).symm ▸ ?_
    cases hreader : s.scanners[j]? with
    | none => rw [act_scan_of_none hreader]
    | some reader =>
      rw [act_scan hreader, configs, update, List.map_set]
      apply set_of_getElem?
      rw [List.getElem?_map, hreader, Option.map_some, Scanner.config_scan]
  | _ => exact (List.append_nil _).symm

lemma configs_run_eq (s : Source) (actions : List Action) :
    (s.run actions).2.1.configs = s.configs ++ actions.filterMap Action.config? := by
  induction actions generalizing s with
  | nil => exact (List.append_nil _).symm
  | cons a actions ih =>
    refine (ih (s.act a).source).trans ?_
    rw [configs_act_eq, List.append_assoc]
    cases h : a.config? <;> simp [h]

end Source

namespace Workspace

/-- The scanner numbered `j` on the source numbered `i`. -/
def scanner? (w : Workspace) (i j : Nat) : Option Scanner := do (← w.sources[i]?).scanners[j]?

variable {w : Workspace} {i j : Nat} {s : Source} {reader : Scanner} {st : Step}

lemma means_of_config {settings : Settings} {config : Config} (h : w.config settings = .ok config) :
    settings.Means w.active config := by
  cases settings with
  | none => exact (Except.ok.inj h).symm
  | some entries => exact h

lemma scanner?_eq (h : w.sources[i]? = some s) (j : Nat) : w.scanner? i j = s.scanners[j]? := by
  rw [scanner?, h]
  rfl

lemma exists_source_of_scanner? (h : w.scanner? i j = some reader) :
    ∃ s, w.sources[i]? = some s ∧ s.scanners[j]? = some reader := by
  cases hs : w.sources[i]? with
  | none =>
    rw [scanner?, hs] at h
    exact absurd h (by simp)
  | some s =>
    rw [scanner?_eq hs] at h
    exact ⟨s, rfl, h⟩

lemma settings_of_attach {config : Config} (h : .attach config ∈ w.actions i st) :
    ∃ settings, st.settings? = some settings ∧ w.config settings = .ok config := by
  cases does_of_mem_actions h with
  | attach settings config hsettings hconfig => exact ⟨settings, hsettings, hconfig⟩

/-- The readers of a source that a step makes. -/
lemma settings_of_fresh {fs : FileSystem} (hs : s ∈ w.fresh fs st) (hreader : reader ∈ s.scanners) :
    ∃ settings, st.settings? = some settings ∧ w.config settings = .ok reader.config := by
  cases st with
  | newCursor id text source =>
    rw [List.mem_singleton.mp hs] at hreader
    exact absurd hreader List.not_mem_nil
  | openCursor id path encoding =>
    simp only [fresh] at hs
    split at hs
    · rw [List.mem_singleton.mp hs] at hreader
      exact absurd hreader List.not_mem_nil
    · exact absurd hs List.not_mem_nil
  | newSession id text source settings =>
    refine ⟨settings, rfl, ?_⟩
    simp only [fresh] at hs
    split at hs
    next config hconfig =>
      rw [List.mem_singleton.mp hs, Source.ofSession, List.mem_singleton] at hreader
      rw [hconfig, hreader]
      rfl
    next => exact absurd hs List.not_mem_nil
  | openSession id path settings =>
    refine ⟨settings, rfl, ?_⟩
    simp only [fresh] at hs
    split at hs
    next config hconfig =>
      rcases hopen : Session.openFile fs config path with ⟨e | session, log⟩
      · rw [hopen] at hs
        exact absurd hs List.not_mem_nil
      · rw [hopen] at hs
        obtain ⟨text, -, rfl⟩ := (Session.opens_of_openFile (congrArg Prod.fst hopen)).eq_start
        rw [List.mem_singleton.mp hs, Source.ofSession, List.mem_singleton] at hreader
        rw [hconfig, hreader]
        rfl
    next => exact absurd hs List.not_mem_nil
  | openBatch id paths ids settings =>
    refine ⟨settings, rfl, ?_⟩
    simp only [fresh] at hs
    split at hs
    next config hconfig =>
      rcases hopen : Session.openFiles fs config paths with ⟨e | sessions, log⟩
      · rw [hopen] at hs
        exact absurd hs List.not_mem_nil
      · rw [hopen] at hs
        obtain ⟨session, hsession, rfl⟩ := List.mem_map.mp hs
        obtain ⟨path, hpath⟩ := Session.exists_opens_of_mem (Session.opens_of_openFiles hopen) hsession
        obtain ⟨text, -, rfl⟩ := hpath.eq_start
        rw [Source.ofSession, List.mem_singleton] at hreader
        rw [hconfig, hreader]
        rfl
    next => exact absurd hs List.not_mem_nil
  | _ => exact absurd hs List.not_mem_nil

/-- A reader that was not there before the step has the configuration that the settings of the step
mean. -/
theorem config_of_made {fs : FileSystem} (hnone : w.scanner? i j = none)
    (hsome : (w.step fs st).2.scanner? i j = some reader) :
    ∃ settings, st.settings? = some settings ∧ w.config settings = .ok reader.config := by
  obtain ⟨s', hs', hreader⟩ := exists_source_of_scanner? hsome
  cases hs : w.sources[i]? with
  | some s =>
    rw [scanner?_eq hs] at hnone
    rw [sources_step hs, Option.some_inj] at hs'
    have hconfig : (s.run (w.actions i st)).2.1.configs[j]? = some reader.config := by
      rw [hs', Source.configs, List.getElem?_map, hreader, Option.map_some]
    have hlength : s.configs.length ≤ j := by
      rw [Source.configs, List.length_map]
      exact List.getElem?_eq_none_iff.mp hnone
    rw [Source.configs_run_eq, List.getElem?_append_right hlength] at hconfig
    obtain ⟨a, ha, hattach⟩ := List.mem_filterMap.mp (List.mem_of_getElem? hconfig)
    cases a with
    | attach config =>
      obtain rfl : config = reader.config := Option.some.inj hattach
      exact settings_of_attach ha
    | _ => exact absurd hattach (by simp [Source.Action.config?])
  | none =>
    by_cases hst : st.Configures
    · rw [sources_step_of_configures hst, hs] at hs'
      exact absurd hs' (by simp)
    · obtain ⟨k, rfl⟩ := Nat.exists_eq_add_of_le (List.getElem?_eq_none_iff.mp hs)
      rw [(gains_step fs w hst).getElem?_eq] at hs'
      exact settings_of_fresh (List.mem_of_getElem? hs') (List.mem_of_getElem? hreader)

/-- A reader keeps its configuration in every run. -/
theorem config_kept (h : w.scanner? i j = some reader) (fs : FileSystem) (steps : List Step) :
    ∃ later, (w.run fs steps).2.scanner? i j = some later ∧ later.config = reader.config := by
  obtain ⟨s, hs, hreader⟩ := exists_source_of_scanner? h
  obtain ⟨s', hs', more, hmore⟩ := configs_kept hs fs steps
  have hconfig : s.configs[j]? = some reader.config := by
    rw [Source.configs, List.getElem?_map, hreader, Option.map_some]
  obtain ⟨hj, -⟩ := List.getElem?_eq_some_iff.mp hconfig
  have hkept : (s.configs ++ more)[j]? = some reader.config := by
    rw [List.getElem?_append_left hj, hconfig]
  rw [hmore, Source.configs, List.getElem?_map, Option.map_eq_some_iff] at hkept
  rw [scanner?_eq hs']
  exact hkept

lemma attach_of_ok {id cursor : String} {config : Config} {object : Nat → Nat → Object} {r : Result}
    (h : (w.attach id cursor config object).1.result = .ok r) :
    ∃ i, ∃ s : Source, w.sources[i]? = some s ∧ (w.attach id cursor config object).2 =
      { w with sources := w.sources.set i (s.act (.attach config)).source }.name id
        (object i s.scanners.length) := by
  unfold attach at h ⊢
  cases hcursor : w.cursor? cursor with
  | none => simp [hcursor, fail] at h
  | some i =>
    simp only [hcursor, bind, Option.bind] at h ⊢
    cases hs : w.sources[i]? with
    | none => simp [hs, fail] at h
    | some s =>
      refine ⟨i, s, hs, ?_⟩
      simp only [onSource, hs, Option.map_some]
      rfl

lemma withConfig_of_ok {settings : Settings} {k : Config → Reply × Workspace} {r : Result}
    (h : (w.withConfig settings k).1.result = .ok r) :
    ∃ config, w.config settings = .ok config ∧ w.withConfig settings k = k config := by
  unfold withConfig at h ⊢
  cases hconfig : w.config settings with
  | ok config => exact ⟨config, rfl, rfl⟩
  | error e => simp [hconfig, fail] at h

/-- In the second workspace the name stands for a reader that the first one does not have. -/
def Introduces (id : String) (w w' : Workspace) : Prop :=
  ∃ i j reader, w'.reader? id = some (i, j) ∧ w'.scanner? i j = some reader ∧ w.scanner? i j = none

lemma introduces_attach {id cursor : String} {config : Config} {object : Nat → Nat → Object} {r : Result}
    (hobject : ∀ i j, ∀ u : Workspace, (u.name id (object i j)).reader? id = some (i, j))
    (h : (w.attach id cursor config object).1.result = .ok r) :
    Introduces id w (w.attach id cursor config object).2 := by
  obtain ⟨i, s, hs, heq⟩ := attach_of_ok h
  rw [heq]
  obtain ⟨hi, -⟩ := List.getElem?_eq_some_iff.mp hs
  refine ⟨i, s.scanners.length, .start config s.cursor, hobject i _ _, ?_, ?_⟩
  · rw [scanner?_eq (List.getElem?_set_self hi)]
    exact List.getElem?_concat_length
  · rw [scanner?_eq hs]
    exact List.getElem?_eq_none (Nat.le_refl _)

lemma introduces_addSession (w : Workspace) (id : String) (s : Session) :
    Introduces id w (w.addSession id s) := by
  have hsource : (w.addSession id s).sources[w.sources.length]? = some (.ofSession s) :=
    List.getElem?_concat_length
  refine ⟨w.sources.length, 0, s.scanner, ?_, ?_, ?_⟩
  · simp [addSession, reader?, Mirrors.object?_name]
  · rw [scanner?_eq hsource]
    rfl
  · rw [scanner?, List.getElem?_eq_none (Nat.le_refl _)]
    rfl

/-- A scanner or session that was made is new, and has its name. -/
theorem introduces_of_constructs {fs : FileSystem} {id : String} {settings : Settings} {r : Result}
    (hst : st.constructs? = some (id, settings)) (hok : (w.step fs st).1.result = .ok r) :
    Introduces id w (w.step fs st).2 := by
  cases st with
  | newScanner id' cursor settings' =>
    obtain ⟨rfl, rfl⟩ := Prod.mk.inj (Option.some.inj hst)
    obtain ⟨config, -, hsame⟩ := withConfig_of_ok hok
    simp only [step, hsame] at hok ⊢
    refine introduces_attach ?_ hok
    intro i j u
    simp [reader?, Mirrors.object?_name]
  | sessionOver id' cursor settings' =>
    obtain ⟨rfl, rfl⟩ := Prod.mk.inj (Option.some.inj hst)
    obtain ⟨config, -, hsame⟩ := withConfig_of_ok hok
    simp only [step, hsame] at hok ⊢
    refine introduces_attach ?_ hok
    intro i j u
    simp [reader?, Mirrors.object?_name]
  | newSession id' text source settings' =>
    obtain ⟨rfl, rfl⟩ := Prod.mk.inj (Option.some.inj hst)
    obtain ⟨config, -, hsame⟩ := withConfig_of_ok hok
    simp only [step, hsame]
    exact introduces_addSession w _ _
  | openSession id' path settings' =>
    obtain ⟨rfl, rfl⟩ := Prod.mk.inj (Option.some.inj hst)
    obtain ⟨config, -, hsame⟩ := withConfig_of_ok hok
    simp only [step, hsame] at hok ⊢
    rcases hopen : Session.openFile fs config path with ⟨e | s, log⟩
    · simp [hopen, fail] at hok
    · exact introduces_addSession w _ s
  | _ => simp [Step.constructs?] at hst

/-- A file is decoded with the encoding of the configuration that its reader gets. -/
theorem decoded_of_opened {fs : FileSystem} {k : Nat} {path : String} {r : Result}
    (hpath : st.paths[k]? = some path) (hok : (w.step fs st).1.result = .ok r) :
    ∃ settings config text, st.settings? = some settings ∧ w.config settings = .ok config ∧
      readSource fs path config.encoding = .ok text ∧
      (w.step fs st).2.sources[w.sources.length + k]? =
        some (.ofSession (.start config { rest := text, source := some path })) := by
  cases st with
  | openSession id path' settings =>
    obtain ⟨config, hconfig, hsame⟩ := withConfig_of_ok hok
    have hst : ¬ (Step.openSession id path' settings).Configures := not_false
    have hgains := gains_step fs w hst
    simp only [step, hsame] at hok
    rw [hgains.getElem?_eq, fresh, hconfig]
    rcases hopen : Session.openFile fs config path' with ⟨e | s, log⟩
    · simp [hopen, fail] at hok
    · obtain ⟨rfl, rfl⟩ : k = 0 ∧ path = path' := by
        cases k <;> simp_all [Step.paths]
      obtain ⟨text, hread, rfl⟩ := (Session.opens_of_openFile (congrArg Prod.fst hopen)).eq_start
      refine ⟨settings, config, text, rfl, hconfig, hread, ?_⟩
      simp only [hopen]
      rfl
  | openBatch id paths ids settings =>
    obtain ⟨config, hconfig, hsame⟩ := withConfig_of_ok hok
    have hst : ¬ (Step.openBatch id paths ids settings).Configures := not_false
    have hgains := gains_step fs w hst
    simp only [step, hsame] at hok
    rw [hgains.getElem?_eq, fresh, hconfig]
    rcases hopen : Session.openFiles fs config paths with ⟨e | sessions, log⟩
    · simp [hopen, fail] at hok
    · obtain ⟨s, hs, hopens⟩ := Session.opens_getElem? (Session.opens_of_openFiles hopen) hpath
      obtain ⟨text, hread, rfl⟩ := hopens.eq_start
      refine ⟨settings, config, text, rfl, hconfig, hread, ?_⟩
      simp only [hopen, List.getElem?_map, hs, Option.map_some]
  | _ => simp [Step.paths] at hpath

end Workspace

end Munch
