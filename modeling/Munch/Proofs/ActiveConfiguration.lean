import Munch.Proofs.Programs
import Munch.Proofs.ReaderConfigs

/-!
# The active configuration in a program

However a program nests its scopes and wherever it raises, the active configuration follows a stack: entering
a scope puts a configuration on it, setting and resetting replace the one on top, and leaving takes it off
(`Workspace.course_tracks`). Readers take the active configuration only when they are made without settings,
and keep what they took (`Workspace.active_configuration`).
-/

namespace Munch

/-- The active configuration, and those to go back to, the innermost first. -/
structure Scopes where
  active : Config
  outer : List Config

namespace Scopes

/-- The configuration that settings mean at the top of the stack. -/
def chosen (n : Scopes) : Settings → Except InvalidLimit Config
  | some entries => Config.ofEntries entries
  | none => .ok n.active

/-- The stack after a step. Settings that are refused leave it as it is. -/
def after (n : Scopes) : Step → Scopes
  | .setConfig settings =>
    match n.chosen settings with
    | .ok config => { n with active := config }
    | .error _ => n
  | .resetConfig => { n with active := default }
  | .enterScope _ settings =>
    match n.chosen settings with
    | .ok config => ⟨config, n.active :: n.outer⟩
    | .error _ => n
  | .leaveScope _ =>
    match n.outer with
    | before :: outer => ⟨before, outer⟩
    | [] => n
  | _ => n

def afterAll (n : Scopes) (steps : List Step) : Scopes := steps.foldl after n

/-- At every moment of these steps the configuration on top of the stack is the active one. -/
def Tracks (fs : FileSystem) (w : Workspace) (n : Scopes) (steps : List Step) : Prop :=
  ∀ before, before <+: steps → (w.run fs before).2.active = (n.afterAll before).active

variable {fs : FileSystem} {w : Workspace} {n : Scopes} {st : Step} {steps more : List Step}

lemma afterAll_append (n : Scopes) (steps more : List Step) :
    n.afterAll (steps ++ more) = (n.afterAll steps).afterAll more := List.foldl_append

lemma chosen_eq (w : Workspace) (outer : List Config) (settings : Settings) :
    chosen ⟨w.active, outer⟩ settings = w.config settings := by
  cases settings <;> rfl

lemma after_eq {outer : List Config} (hst : ¬ st.Scopes) :
    after ⟨w.active, outer⟩ st = ⟨(w.step fs st).2.active, outer⟩ := by
  by_cases hconfigures : st.Configures
  · cases st with
    | setConfig settings =>
      cases hconfig : w.config settings with
      | ok config => rw [after, chosen_eq, Workspace.step_setConfig hconfig, hconfig]
      | error e => rw [after, chosen_eq, Workspace.step_of_refused rfl hconfig, hconfig]
    | resetConfig => rfl
    | enterScope id settings => exact absurd trivial hst
    | leaveScope id => exact absurd trivial hst
    | _ => exact hconfigures.elim
  · rw [(Workspace.gains_step fs w hconfigures).active_eq]
    cases st with
    | setConfig settings => exact absurd trivial hconfigures
    | enterScope id settings => exact absurd trivial hst
    | leaveScope id => exact absurd trivial hst
    | resetConfig => exact absurd trivial hconfigures
    | _ => rfl

namespace Tracks

lemma nil (h : w.active = n.active) : Tracks fs w n [] := by
  intro before hbefore
  rw [List.prefix_nil.mp hbefore]
  exact h

lemma single (h : w.active = n.active) (hst : (w.step fs st).2.active = (n.after st).active) :
    Tracks fs w n [st] := by
  intro before hbefore
  rcases List.prefix_cons_iff.mp hbefore with rfl | ⟨rest, rfl, hrest⟩
  · exact h
  · rw [List.prefix_nil.mp hrest]
    exact hst

lemma append (h : Tracks fs w n steps) (hmore : Tracks fs (w.run fs steps).2 (n.afterAll steps) more) :
    Tracks fs w n (steps ++ more) := by
  intro before hbefore
  rcases List.prefix_or_prefix_of_prefix hbefore (List.prefix_append steps more) with hshort | ⟨rest, rfl⟩
  · exact h before hshort
  · rw [Workspace.workspace_run_append, afterAll_append]
    exact hmore rest ((List.prefix_append_right_inj steps).mp hbefore)

lemma last (h : Tracks fs w n steps) : (w.run fs steps).2.active = (n.afterAll steps).active :=
  h steps (List.prefix_refl steps)

end Tracks

/-- The steps leave as many scopes as they enter, and the stack is right all the time. -/
structure Balanced (fs : FileSystem) (w : Workspace) (outer : List Config) (steps : List Step) :
    Prop where
  tracks : Tracks fs w ⟨w.active, outer⟩ steps
  settled : (afterAll ⟨w.active, outer⟩ steps).outer = outer

namespace Balanced

variable {outer : List Config}

lemma nil : Balanced fs w outer [] := ⟨.nil rfl, rfl⟩

lemma afterAll_eq (h : Balanced fs w outer steps) :
    afterAll ⟨w.active, outer⟩ steps = ⟨(w.run fs steps).2.active, outer⟩ := by
  rw [h.tracks.last]
  exact congrArg (Scopes.mk _) h.settled

lemma append (h : Balanced fs w outer steps) (hmore : Balanced fs (w.run fs steps).2 outer more) :
    Balanced fs w outer (steps ++ more) := by
  constructor
  · apply h.tracks.append
    rw [h.afterAll_eq]
    exact hmore.tracks
  · rw [afterAll_append, h.afterAll_eq]
    exact hmore.settled

/-- A step that neither enters nor leaves a scope. -/
lemma single (hst : ¬ st.Scopes) : Balanced fs w outer [st] := by
  have hafter : after ⟨w.active, outer⟩ st = ⟨(w.step fs st).2.active, outer⟩ := after_eq hst
  constructor
  · exact .single rfl (congrArg Scopes.active hafter.symm)
  · exact congrArg Scopes.outer hafter

/-- Whatever is done inside, the configuration from before is active again after it. -/
lemma wrap {id : String} {settings : Settings} {config : Config} (hconfig : w.config settings = .ok config)
    (hbody : Balanced fs (w.step fs (.enterScope id settings)).2 (w.active :: outer) steps)
    (hid : ∀ st ∈ steps, id ∉ st.gives) :
    Balanced fs w outer (.enterScope id settings :: (steps ++ [.leaveScope id])) ∧
      (w.run fs (.enterScope id settings :: (steps ++ [.leaveScope id]))).2.active = w.active := by
  have henter : (w.step fs (.enterScope id settings)).2 =
      { w.name id (.scope w.active false) with active := config } := by
    rw [Workspace.step_enterScope hconfig]
  have hpush : after ⟨w.active, outer⟩ (.enterScope id settings) =
      ⟨(w.step fs (.enterScope id settings)).2.active, w.active :: outer⟩ := by
    rw [after, chosen_eq, hconfig, henter]
  -- the body does not use the name, so leaving finds what entering has put there
  have hscope : ((w.step fs (.enterScope id settings)).2.run fs steps).2.object? id =
      some (.scope w.active false) := by
    rw [Workspace.object?_run hid, henter]
    exact List.lookup_cons_self
  have hleave := Workspace.step_leaveScope hscope fs
  have htracks : Tracks fs w ⟨w.active, outer⟩ (.enterScope id settings :: (steps ++ [.leaveScope id])) := by
    change Tracks fs _ _ ([.enterScope id settings] ++ (steps ++ [.leaveScope id]))
    apply Tracks.append
    · exact .single rfl (congrArg Scopes.active hpush.symm)
    · change Tracks fs _ (after ⟨w.active, outer⟩ (.enterScope id settings)) _
      rw [hpush]
      apply hbody.tracks.append
      rw [hbody.afterAll_eq]
      exact .single rfl (congrArg (fun r => Workspace.active r.2) hleave)
  have hpop : afterAll ⟨w.active, outer⟩ (.enterScope id settings :: (steps ++ [.leaveScope id])) =
      ⟨w.active, outer⟩ := by
    change afterAll (after ⟨w.active, outer⟩ (.enterScope id settings)) _ = _
    rw [hpush, afterAll_append, hbody.afterAll_eq]
    rfl
  exact ⟨⟨htracks, congrArg Scopes.outer hpop⟩, htracks.last.trans (congrArg Scopes.active hpop)⟩

/-- A scope that cannot be entered leaves everything as it is. -/
lemma refused {id : String} {settings : Settings} {e : InvalidLimit}
    (hconfig : w.config settings = .error e) :
    Balanced fs w outer [.enterScope id settings] ∧
      (w.run fs [.enterScope id settings]).2.active = w.active := by
  have hstep : (w.step fs (.enterScope id settings)).2 = w := by
    rw [Workspace.step_of_refused rfl hconfig]
  have hafter : after ⟨w.active, outer⟩ (.enterScope id settings) = ⟨w.active, outer⟩ := by
    rw [after, chosen_eq, hconfig]
  have hactive : (w.step fs (.enterScope id settings)).2.active = w.active := congrArg Workspace.active hstep
  refine ⟨⟨.single rfl ?_, congrArg Scopes.outer hafter⟩, hactive⟩
  rw [hactive, hafter]

end Balanced

end Scopes

namespace Program

open Scopes

variable {fs : FileSystem} {w : Workspace} {outer : List Config} {id : String} {settings : Settings}
  {body : Program}

lemma course_scope_of_error {e : InvalidLimit} (h : w.config settings = .error e) :
    ((scope id settings body).course fs w).steps = [.enterScope id settings] := by
  have hresult : (w.step fs (.enterScope id settings)).1.result = .error (.config e) := by
    rw [Workspace.step_of_refused rfl h]
  rw [course, Course.block_of_error hresult]

lemma course_scope_of_ok {config : Config} (h : w.config settings = .ok config) :
    ((scope id settings body).course fs w).steps = .enterScope id settings ::
      ((body.course fs (w.step fs (.enterScope id settings)).2).steps ++ [.leaveScope id]) := by
  have hresult : (w.step fs (.enterScope id settings)).1.result = .ok (.text config.render) := by
    rw [Workspace.step_enterScope h]
  rw [course, Course.block_of_ok hresult]

/-- After a scope the configuration from before is active. -/
lemma balanced_scope (outer : List Config) (hid : id ∉ body.gives)
    (hbody : ∀ w outer, Balanced fs w outer (body.course fs w).steps) :
    Balanced fs w outer ((scope id settings body).course fs w).steps ∧
      (w.run fs ((scope id settings body).course fs w).steps).2.active = w.active := by
  cases hconfig : w.config settings with
  | error e =>
    rw [course_scope_of_error hconfig]
    exact Balanced.refused hconfig
  | ok config =>
    rw [course_scope_of_ok hconfig]
    apply Balanced.wrap hconfig (hbody _ _)
    exact fun st hst hgives => hid (gives_of_mem_course hst hgives)

theorem balanced_course {p : Program} (hp : p.Nested) (w : Workspace) (outer : List Config) :
    Balanced fs w outer (p.course fs w).steps := by
  induction p generalizing w outer with
  | skip => exact .nil
  | step st => exact .single hp
  | raise what => exact .nil
  | seq p q ihp ihq =>
    cases hraised : (p.course fs w).raised with
    | some e =>
      rw [course_seq_of_raised hraised]
      exact ihp hp.1 w outer
    | none =>
      rw [course_seq hraised]
      exact (ihp hp.1 w outer).append (ihq hp.2 _ outer)
  | attempt p ih => exact ih hp w outer
  | scope id settings body ih => exact (balanced_scope outer hp.1 fun w outer => ih hp.2 w outer).1
  | batch id paths ids settings body ih =>
    have hopen : Balanced fs w outer [.openBatch id paths ids settings] := .single not_false
    rw [course]
    cases hresult : (w.step fs (.openBatch id paths ids settings)).1.result with
    | error e =>
      rw [Course.block_of_error hresult]
      exact hopen
    | ok r =>
      rw [Course.block_of_ok hresult]
      exact hopen.append ((ih hp.2 _ outer).append (.single not_false))

end Program

namespace Workspace

/-- However a program nests its scopes and wherever it raises: at every moment the configuration on top of
the stack is active, all scopes have been left at the end, and after a scope the configuration from before is
active. What a step makes has the configuration that its settings mean at that moment, a file is decoded with
its encoding, and no reader ever gets another one. -/
theorem active_configuration (fs : FileSystem) (w : Workspace) (p : Program) (hp : p.Nested) :
    let steps := (p.course fs w).steps
    Scopes.Balanced fs w [] steps ∧
    (∀ id settings body, p = .scope id settings body → (w.run fs steps).2.active = w.active) ∧
    ∀ before st after, steps = before ++ st :: after →
      let now := (w.run fs before).2
      let next := (now.step fs st).2
      (∀ i j reader, next.scanner? i j = some reader →
        (now.scanner? i j = none →
          ∃ settings, st.settings? = some settings ∧ settings.Means now.active reader.config) ∧
        ∀ more, ∃ later, (next.run fs more).2.scanner? i j = some later ∧
          later.config = reader.config) ∧
      ∀ r, (now.step fs st).1.result = .ok r →
        (∀ id settings, st.constructs? = some (id, settings) → Introduces id now next) ∧
        ∀ k path, st.paths[k]? = some path → ∃ settings config text,
          st.settings? = some settings ∧ settings.Means now.active config ∧
          readSource fs path config.encoding = .ok text ∧
          next.sources[now.sources.length + k]? =
            some (.ofSession (.start config { rest := text, source := some path })) := by
  intro steps
  refine ⟨Program.balanced_course hp w [], ?_, ?_⟩
  · rintro id settings body rfl
    exact (Program.balanced_scope [] hp.1 fun w outer => Program.balanced_course hp.2 w outer).2
  · intro before st after _ now next
    refine ⟨fun i j reader hreader => ⟨fun hnew => ?_, config_kept hreader fs⟩, fun r hok => ⟨?_, ?_⟩⟩
    · obtain ⟨settings, hsettings, hconfig⟩ := config_of_made hnew hreader
      exact ⟨settings, hsettings, means_of_config hconfig⟩
    · exact fun id settings hst => introduces_of_constructs hst hok
    · intro k path hpath
      obtain ⟨settings, config, text, hsettings, hconfig, hread, hsource⟩ := decoded_of_opened hpath hok
      exact ⟨settings, config, text, hsettings, means_of_config hconfig, hread, hsource⟩

/-- Two scopes are left by what the inner one raises. The session from the outer one keeps its limit, and the
limit that was set before both of them is active again. -/
theorem active_configuration_of_raise_in_scope :
    let fs : FileSystem := fun _ => .error .noSuchFile
    let limit (n : Int) : Settings := some [("max_lexeme_length", .int n)]
    let inner : Program := .scope "inner" (limit 7) (.seq (.step .resetConfig) (.raise "stop"))
    let outer : Program := .scope "outer" (limit 5) (.seq (.step (.newSession "s" "ab" none none)) inner)
    let p : Program := .seq (.step (.setConfig (limit 3))) (.attempt outer)
    let last := (({} : Workspace).run fs (p.course fs {}).steps).2
    p.Nested ∧ last.active.limit = 3 ∧
      ∃ reader, last.scanner? 0 0 = some reader ∧ reader.config.limit = 5 := by
  intro fs limit inner outer p last
  have hp : p.Nested := by simp [p, outer, inner, Program.Nested, Program.gives, Step.gives, Step.Scopes]
  obtain ⟨hbalanced, -, hmade⟩ := active_configuration fs {} p hp
  have hsteps : (p.course fs {}).steps =
      [.setConfig (limit 3), .enterScope "outer" (limit 5)] ++ .newSession "s" "ab" none none ::
        [.enterScope "inner" (limit 7), .resetConfig, .leaveScope "inner", .leaveScope "outer"] := rfl
  refine ⟨hp, ?_, ?_⟩
  · rw [hbalanced.tracks.last]
    rfl
  · obtain ⟨reader, hreader, hsame⟩ := ((hmade _ _ _ hsteps).1 0 0 _ rfl).2
      [.enterScope "inner" (limit 7), .resetConfig, .leaveScope "inner", .leaveScope "outer"]
    exact ⟨reader, hreader, congrArg Config.limit hsame⟩

end Workspace

end Munch
