import Munch.Proofs.Independence
import Munch.Proofs.SharedRuns

/-!
# What a step adds

Nothing is ever taken away in a run: a step puts the sources that it makes behind those there are and the
names that it gives in front of the older ones, and only four kinds of steps change the active
configuration (`Workspace.gains_step`).
-/

namespace Munch

/-- The names whose meaning a step may change. -/
def Step.gives : Step → List String
  | .newCursor id _ _ | .openCursor id _ _ | .newScanner id _ _ | .newSession id _ _ _
  | .sessionOver id _ _ | .openSession id _ _ | .iterate id _ | .iterNext id _ | .enterScope id _
  | .leaveScope id => [id]
  | .openBatch id _ ids _ => id :: ids
  | _ => []

/-- The settings that a step was given, if it is one that takes any. -/
def Step.settings? : Step → Option Settings
  | .newScanner _ _ settings | .newSession _ _ _ settings | .sessionOver _ _ settings
  | .openSession _ _ settings | .openBatch _ _ _ settings | .tokenize _ _ settings
  | .tokenizeFile _ settings | .setConfig settings | .enterScope _ settings => some settings
  | _ => none

namespace Workspace

/-- The sources that a step makes. -/
def fresh (fs : FileSystem) (w : Workspace) : Step → List Source
  | .newCursor _ text source => [{ cursor := .ofText text source }]
  | .openCursor _ path encoding =>
    match Cursor.openFile fs path encoding with
    | .ok c => [{ cursor := c }]
    | .error _ => []
  | .newSession _ text source settings =>
    match w.config settings with
    | .ok config => [.ofSession (.ofText config text source)]
    | .error _ => []
  | .openSession _ path settings =>
    match w.config settings with
    | .ok config =>
      match Session.openFile fs config path with
      | (.ok s, _) => [.ofSession s]
      | (.error _, _) => []
    | .error _ => []
  | .openBatch _ paths _ settings =>
    match w.config settings with
    | .ok config =>
      match Session.openFiles fs config paths with
      | (.ok sessions, _) => sessions.map .ofSession
      | (.error _, _) => []
    | .error _ => []
  | _ => []

/-- Nothing has changed but what is in the sources. -/
structure Worked (w w' : Workspace) : Prop where
  active_eq : w'.active = w.active
  length_eq : w'.sources.length = w.sources.length
  objects_eq : w'.objects = w.objects

/-- The active configuration stays, these sources come last, and names from this list come first. They
stand for no scope, and for a cursor only if it is new. -/
structure Gains (names : List String) (made : List Source) (w w' : Workspace) : Prop where
  active_eq : w'.active = w.active
  sources_eq : ∃ kept, kept.length = w.sources.length ∧ w'.sources = kept ++ made
  objects_eq : ∃ new, w'.objects = new ++ w.objects ∧ ∀ p ∈ new, p.1 ∈ names ∧
    (∀ before left, p.2 ≠ .scope before left) ∧
    ∀ i, p.2 = .cursor i → w.sources.length ≤ i ∧ i < w'.sources.length

variable {w w' w'' : Workspace} {names : List String} {made : List Source}

namespace Worked

lemma refl (w : Workspace) : Worked w w := ⟨rfl, rfl, rfl⟩

lemma trans (h : Worked w w') (h' : Worked w' w'') : Worked w w'' :=
  ⟨h'.active_eq.trans h.active_eq, h'.length_eq.trans h.length_eq, h'.objects_eq.trans h.objects_eq⟩

lemma onSource {α : Type} {k : Nat} {f : Source → α × Source × List Record} {a : α}
    {log : List Record} (h : w.onSource k f = some (a, w', log)) : Worked w w' := by
  rw [Workspace.onSource, Option.map_eq_some_iff] at h
  obtain ⟨s, -, heq⟩ := h
  simp only [Prod.mk.injEq] at heq
  obtain ⟨-, rfl, -⟩ := heq
  exact ⟨rfl, List.length_set, rfl⟩

lemma onReader {α : Type} (w : Workspace) (id : String) (f : Nat → Source → α × Source × List Record)
    (result : α → Result) : Worked w (w.onReader id f result).2 := by
  unfold Workspace.onReader
  cases w.reader? id with
  | none => exact refl w
  | some reader =>
    simp only [bind, Option.bind]
    cases hon : w.onSource reader.1 (f reader.2) with
    | none => exact refl w
    | some done => exact onSource hon

lemma closeWith (w : Workspace) (k : Nat) (how : Source.Action) (id : String) :
    Worked w (step.closeWith w k how id).2 := by
  unfold step.closeWith
  cases hon : w.onSource k fun s => ((), (s.act how).source, (s.act how).log) with
  | none => exact refl w
  | some done => exact onSource hon

lemma closeSessions (w : Workspace) (members : List (Nat × Nat)) :
    Worked w (w.closeSessions members).1 := by
  induction members with
  | nil => exact refl w
  | cons member members ih =>
    simp only [Workspace.closeSessions]
    cases hon : (w.closeSessions members).1.onSource member.1
        fun s => ((), (s.act .closeSession).source, (s.act .closeSession).log) with
    | none => exact ih
    | some done => exact ih.trans (onSource hon)

lemma finish (w : Workspace) (shown : Option String) (result : Result) (log : List Record) :
    (iterNext.finish shown w result log).2 = w := by
  unfold iterNext.finish
  cases shown with
  | none => rfl
  | some other =>
    dsimp only
    split <;> rfl

lemma gains (h : Worked w w') (names : List String) : Gains names [] w w' := by
  refine ⟨h.active_eq, ⟨w'.sources, h.length_eq, (List.append_nil _).symm⟩, [], h.objects_eq, by simp⟩

end Worked

namespace Gains

lemma refl (names : List String) (w : Workspace) : Gains names [] w w := (Worked.refl w).gains names

lemma length_eq (h : Gains names made w w') :
    w'.sources.length = w.sources.length + made.length := by
  obtain ⟨kept, hlength, heq⟩ := h.sources_eq
  rw [heq, List.length_append, hlength]

lemma getElem?_eq (h : Gains names made w w') (k : Nat) :
    w'.sources[w.sources.length + k]? = made[k]? := by
  obtain ⟨kept, hlength, heq⟩ := h.sources_eq
  rw [heq, ← hlength, List.getElem?_append_right (Nat.le_add_right _ _), Nat.add_sub_cancel_left]

lemma name (h : Gains names made w w') {id : String} (hid : id ∈ names) {o : Object}
    (hscope : ∀ before left, o ≠ .scope before left)
    (hcursor : ∀ i, o = .cursor i → w.sources.length ≤ i ∧ i < w'.sources.length) :
    Gains names made w (w'.name id o) := by
  obtain ⟨new, hobjects, hnew⟩ := h.objects_eq
  refine ⟨h.active_eq, h.sources_eq, (id, o) :: new, ?_, ?_⟩
  · rw [Workspace.name, hobjects, List.cons_append]
  · exact List.forall_mem_cons.mpr ⟨⟨hid, hscope, hcursor⟩, hnew⟩

lemma addSources (w : Workspace) (names : List String) (made : List Source) :
    Gains names made w { w with sources := w.sources ++ made } :=
  ⟨rfl, ⟨w.sources, rfl, rfl⟩, [], rfl, by simp⟩

lemma addCursor (w : Workspace) (id : String) (c : Cursor) :
    Gains [id] [{ cursor := c }] w
      ((w.addSource { cursor := c }).name id (.cursor w.sources.length)) := by
  apply (addSources w [id] [{ cursor := c }]).name (List.mem_singleton_self id)
  · simp
  · rintro i ⟨⟩
    rw [List.length_append, List.length_singleton]
    omega

lemma addSession (w : Workspace) (id : String) (s : Session) :
    Gains [id] [.ofSession s] w (w.addSession id s) := by
  apply (addSources w [id] [.ofSession s]).name (List.mem_singleton_self id) <;> simp

end Gains

lemma sources_addBatch (w : Workspace) (sessions : List Session) (ids : List String) :
    (w.addBatch sessions ids).1.sources = w.sources ++ sessions.map .ofSession := by
  induction sessions generalizing w ids with
  | nil => exact (List.append_nil _).symm
  | cons s sessions ih =>
    cases ids with
    | nil =>
      refine (ih (w.addSource (.ofSession s)) []).trans ?_
      rw [addSource, List.append_assoc, List.map_cons, List.singleton_append]
    | cons id ids =>
      refine (ih (w.addSession id s) ids).trans ?_
      rw [addSession, Workspace.name, addSource, List.append_assoc, List.map_cons, List.singleton_append]

lemma active_addBatch (w : Workspace) (sessions : List Session) (ids : List String) :
    (w.addBatch sessions ids).1.active = w.active := by
  induction sessions generalizing w ids with
  | nil => rfl
  | cons s sessions ih =>
    cases ids with
    | nil => exact ih (w.addSource (.ofSession s)) []
    | cons id ids => exact ih (w.addSession id s) ids

lemma objects_addBatch (w : Workspace) (sessions : List Session) (ids : List String) :
    ∃ new, (w.addBatch sessions ids).1.objects = new ++ w.objects ∧
      ∀ p ∈ new, p.1 ∈ ids ∧ ∃ i j, p.2 = .session i j := by
  induction sessions generalizing w ids with
  | nil => exact ⟨[], rfl, by simp⟩
  | cons s sessions ih =>
    cases ids with
    | nil => exact ih (w.addSource (.ofSession s)) []
    | cons id ids =>
      obtain ⟨new, hobjects, hnew⟩ := ih (w.addSession id s) ids
      refine ⟨new ++ [(id, .session w.sources.length 0)], ?_, ?_⟩
      · rw [List.append_assoc, List.singleton_append]
        exact hobjects
      · intro p hp
        rcases List.mem_append.mp hp with hp | hp
        · exact ⟨List.mem_cons_of_mem id (hnew p hp).1, (hnew p hp).2⟩
        · rw [List.mem_singleton.mp hp]
          exact ⟨List.mem_cons_self, _, _, rfl⟩

namespace Gains

lemma addBatch (w : Workspace) (id : String) (sessions : List Session) (ids : List String) :
    Gains (id :: ids) (sessions.map .ofSession) w
      ((w.addBatch sessions ids).1.name id (.batch (w.addBatch sessions ids).2)) := by
  obtain ⟨new, hobjects, hnew⟩ := objects_addBatch w sessions ids
  have hgains : Gains (id :: ids) (sessions.map .ofSession) w (w.addBatch sessions ids).1 := by
    refine ⟨active_addBatch w sessions ids, ⟨w.sources, rfl, sources_addBatch w sessions ids⟩, new,
      hobjects, ?_⟩
    intro p hp
    obtain ⟨hid, i, j, hobject⟩ := hnew p hp
    exact ⟨List.mem_cons_of_mem id hid, by simp [hobject], by simp [hobject]⟩
  exact hgains.name List.mem_cons_self (by simp) (by simp)

lemma attach (w : Workspace) (id cursor : String) (config : Config) {object : Nat → Nat → Object}
    (hscope : ∀ i j before left, object i j ≠ .scope before left)
    (hcursor : ∀ i j k, object i j ≠ .cursor k) :
    Gains [id] [] w (w.attach id cursor config object).2 := by
  unfold Workspace.attach
  cases w.cursor? cursor with
  | none => exact refl _ w
  | some k =>
    simp only [bind, Option.bind]
    cases w.sources[k]? with
    | none => exact refl _ w
    | some s =>
      dsimp only
      cases hon : w.onSource k fun s => ((), (s.act (.attach config)).source, []) with
      | none => exact refl _ w
      | some done =>
        apply ((Worked.onSource hon).gains [id]).name (List.mem_singleton_self id) (hscope _ _)
        intro i hi
        exact absurd hi (hcursor _ _ i)

lemma iterNext (w : Workspace) (id : String) (shown : Option String) :
    Gains [id] [] w (w.iterNext id shown).2 := by
  unfold Workspace.iterNext
  cases w.object? id with
  | none => exact refl _ w
  | some object =>
    cases object with
    | iterator k j finished =>
      cases finished with
      | true =>
        dsimp only
        rw [Worked.finish]
        exact refl _ w
      | false =>
        dsimp only
        cases hon : w.onSource k fun s =>
            ((s.act (.scan j)).yield, (s.act (.scan j)).source, (s.act (.scan j)).log) with
        | none => exact refl _ w
        | some pulled =>
          obtain ⟨yield, u, log⟩ := pulled
          cases yield with
          | token t =>
            dsimp only
            rw [Worked.finish]
            exact ((Worked.onSource hon).gains [id]).name (List.mem_singleton_self id) (by simp) (by simp)
          | _ => exact refl _ w
    | _ => exact refl _ w

end Gains

/-- A step that is not there to change the active configuration leaves it as it is, and adds to the sources
and names. -/
theorem gains_step (fs : FileSystem) (w : Workspace) {st : Step} (hst : ¬ st.Configures) :
    Gains st.gives (w.fresh fs st) w (w.step fs st).2 := by
  cases st with
  | newCursor id text source => exact .addCursor w id _
  | openCursor id path encoding =>
    simp only [step, fresh]
    cases Cursor.openFile fs path encoding with
    | ok c => exact .addCursor w id c
    | error e => exact .refl _ w
  | newScanner id cursor settings =>
    simp only [step, withConfig]
    cases w.config settings with
    | ok config => exact .attach w id cursor config (by simp) (by simp)
    | error e => exact .refl _ w
  | newSession id text source settings =>
    simp only [step, withConfig, fresh]
    cases w.config settings with
    | ok config => exact .addSession w id _
    | error e => exact .refl _ w
  | sessionOver id cursor settings =>
    simp only [step, withConfig]
    cases w.config settings with
    | ok config => exact .attach w id cursor config (by simp) (by simp)
    | error e => exact .refl _ w
  | openSession id path settings =>
    simp only [step, withConfig, fresh]
    cases w.config settings with
    | ok config =>
      dsimp only
      rcases Session.openFile fs config path with ⟨e | s, log⟩
      · exact .refl _ w
      · exact .addSession w id s
    | error e => exact .refl _ w
  | advance id times =>
    apply Worked.gains
    simp only [step]
    cases w.cursor? id with
    | none => exact .refl w
    | some k =>
      simp only [bind, Option.bind]
      cases hon : w.onSource k fun s =>
          (Source.reads (s.run (List.replicate times .advance)).1,
            (s.run (List.replicate times .advance)).2.1,
            (s.run (List.replicate times .advance)).2.2) with
      | none => exact .refl w
      | some done => exact .onSource hon
  | scan id times => exact (Worked.onReader w id _ .tokens).gains _
  | drain id => exact (Worked.onReader w id _ .tokens).gains _
  | close id =>
    apply Worked.gains
    simp only [step]
    cases w.object? id with
    | none => exact .refl w
    | some object =>
      cases object with
      | cursor k => exact .closeWith w k _ id
      | session k j => exact .closeWith w k _ id
      | _ => exact .refl w
  | inspect id =>
    simp only [step]
    cases w.view? id <;> exact .refl _ w
  | iterate id reader =>
    simp only [step]
    cases w.reader? reader with
    | none => exact .refl _ w
    | some k => exact (Gains.refl [id] w).name (List.mem_singleton_self id) (by simp) (by simp)
  | iterNext id shown => exact .iterNext w id shown
  | openBatch id paths ids settings =>
    simp only [step, withConfig, fresh]
    cases w.config settings with
    | ok config =>
      dsimp only
      rcases Session.openFiles fs config paths with ⟨e | sessions, log⟩
      · exact .refl _ w
      · exact .addBatch w id sessions ids
    | error e => exact .refl _ w
  | closeBatch id ids =>
    apply Worked.gains
    simp only [step]
    cases w.object? id with
    | none => exact .refl w
    | some object =>
      cases object with
      | batch members =>
        dsimp only
        cases (w.closeSessions members).1.renderSessions ids <;> exact .closeSessions w members
      | _ => exact .refl w
  | tokenize text source settings =>
    simp only [step, withConfig]
    cases w.config settings <;> exact .refl _ w
  | tokenizeFile path settings =>
    simp only [step, withConfig]
    cases w.config settings with
    | ok config =>
      dsimp only
      rcases Munch.tokenizeFile fs config path with ⟨e | tokens, log⟩ <;> exact .refl _ w
    | error e => exact .refl _ w
  | activeConfig => exact .refl _ w
  | threadConfig => exact .refl _ w
  | setConfig settings => exact absurd trivial hst
  | resetConfig => exact absurd trivial hst
  | enterScope id settings => exact absurd trivial hst
  | leaveScope id => exact absurd trivial hst

/-- What a step may do to the source numbered `i`, and on what account. -/
inductive Does (w : Workspace) (i : Nat) (st : Step) : Source.Action → Prop
  | advance : Does w i st .advance
  | scan (j : Nat) (hasked : w.asked? st = some (i, j)) : Does w i st (.scan j)
  | attach (settings : Settings) (config : Config) (hsettings : st.settings? = some settings)
      (hconfig : w.config settings = .ok config) : Does w i st (.attach config)
  | closeCursor (id : String) (hst : st = .close id) (hcursor : w.object? id = some (.cursor i)) :
      Does w i st .closeCursor
  | closeSession (id : String) (j : Nat) (hst : st = .close id)
      (hsession : w.object? id = some (.session i j)) : Does w i st .closeSession
  | closeMember (id : String) (ids : List String) (hst : st = .closeBatch id ids) :
      Does w i st .closeSession

theorem does_of_mem_actions {i : Nat} {st : Step} {a : Source.Action} (h : a ∈ w.actions i st) :
    w.Does i st a := by
  have hattach : ∀ cursor settings, st.settings? = some settings → a ∈ w.attachings i cursor settings →
      w.Does i st a := by
    intro cursor settings hsettings hmem
    unfold attachings at hmem
    cases hconfig : w.config settings with
    | ok config =>
      rw [hconfig, List.mem_ite_nil_right, List.mem_singleton] at hmem
      rw [hmem.2]
      exact .attach settings config hsettings hconfig
    | error e =>
      rw [hconfig] at hmem
      exact absurd hmem List.not_mem_nil
  have hscans : ∀ k n j, w.asked? st = some (k, j) →
      a ∈ (if k = i then List.replicate n (.scan j) else []) → w.Does i st a := by
    intro k n j hasked hmem
    rw [List.mem_ite_nil_right, List.mem_replicate] at hmem
    rw [hmem.2.2]
    exact .scan j (hmem.1 ▸ hasked)
  cases st with
  | newScanner id cursor settings => exact hattach cursor settings rfl h
  | sessionOver id cursor settings => exact hattach cursor settings rfl h
  | advance id times =>
    rw [actions, List.mem_ite_nil_right, List.mem_replicate] at h
    rw [h.2.2]
    exact .advance
  | scan id times =>
    simp only [actions] at h
    split at h
    next k j hreader => exact hscans k times j hreader h
    next => exact absurd h List.not_mem_nil
  | drain id =>
    simp only [actions] at h
    split at h
    next k j s hreader hs => exact hscans k _ j hreader h
    next => exact absurd h List.not_mem_nil
  | iterNext id shown =>
    simp only [actions] at h
    split at h
    next k j hobject =>
      refine hscans k 1 j ?_ h
      rw [asked?, hobject]
    next => exact absurd h List.not_mem_nil
  | close id =>
    simp only [actions] at h
    split at h
    next k hobject =>
      rw [List.mem_ite_nil_right, List.mem_singleton] at h
      rw [h.2]
      exact .closeCursor id rfl (h.1 ▸ hobject)
    next k j hobject =>
      rw [List.mem_ite_nil_right, List.mem_singleton] at h
      rw [h.2]
      exact .closeSession id j rfl (h.1 ▸ hobject)
    next => exact absurd h List.not_mem_nil
  | closeBatch id ids =>
    simp only [actions] at h
    split at h
    next members hobject =>
      rw [eq_closeSession_of_mem_closings h]
      exact .closeMember id ids rfl
    next => exact absurd h List.not_mem_nil
  | _ => exact absurd h List.not_mem_nil

section Configuring

variable {settings : Settings} {config before : Config} {id : String} {e : InvalidLimit}

/-- Settings that are refused fail the step, and nothing else happens. -/
theorem step_of_refused {st : Step} (hst : st.settings? = some settings)
    (h : w.config settings = .error e) (fs : FileSystem) :
    w.step fs st = (⟨.error (.config e), none, []⟩, w) := by
  cases st <;> simp only [Step.settings?, Option.some_inj, reduceCtorEq] at hst
  all_goals
    subst hst
    simp only [step, withConfig, h]
    rfl

lemma step_setConfig (h : w.config settings = .ok config) (fs : FileSystem) :
    w.step fs (.setConfig settings) =
      (⟨.ok (.text config.render), none, []⟩, { w with active := config }) := by
  simp only [step, withConfig, h]
  rfl

lemma step_enterScope (h : w.config settings = .ok config) (fs : FileSystem) (id : String) :
    w.step fs (.enterScope id settings) =
      (⟨.ok (.text config.render), none, []⟩,
        { w.name id (.scope w.active false) with active := config }) := by
  simp only [step, withConfig, h]
  rfl

lemma step_leaveScope (h : w.object? id = some (.scope before false)) (fs : FileSystem) :
    w.step fs (.leaveScope id) =
      (⟨.ok (.text before.render), none, []⟩,
        { w.name id (.scope before true) with active := before }) := by
  simp only [step, h]
  rfl

/-- What a step can do that changes the active configuration. -/
inductive Configured (w : Workspace) (st : Step) : Workspace → Prop
  | kept : Configured w st w
  | set (settings : Settings) (config : Config) (hsettings : st.settings? = some settings)
      (hconfig : w.config settings = .ok config) : Configured w st { w with active := config }
  | reset : Configured w st { w with active := default }
  | entered (id : String) (settings : Settings) (config : Config) (hid : id ∈ st.gives)
      (hsettings : st.settings? = some settings) (hconfig : w.config settings = .ok config) :
      Configured w st { w.name id (.scope w.active false) with active := config }
  | left (id : String) (before : Config) (hid : id ∈ st.gives)
      (hscope : w.object? id = some (.scope before false)) :
      Configured w st { w.name id (.scope before true) with active := before }

theorem configured_step (fs : FileSystem) (w : Workspace) {st : Step} (hst : st.Configures) :
    Configured w st (w.step fs st).2 := by
  cases st with
  | setConfig settings =>
    cases hconfig : w.config settings with
    | ok config =>
      rw [step_setConfig hconfig]
      exact .set settings config rfl hconfig
    | error e =>
      rw [step_of_refused rfl hconfig]
      exact .kept
  | resetConfig => exact .reset
  | enterScope id settings =>
    cases hconfig : w.config settings with
    | ok config =>
      rw [step_enterScope hconfig]
      exact .entered id settings config (List.mem_singleton_self id) rfl hconfig
    | error e =>
      rw [step_of_refused rfl hconfig]
      exact .kept
  | leaveScope id =>
    simp only [step]
    cases hobject : w.object? id with
    | none => exact .kept
    | some object =>
      cases object with
      | scope before left =>
        cases left with
        | false => exact .left id before (List.mem_singleton_self id) hobject
        | true => exact .kept
      | _ => exact .kept
  | _ => exact hst.elim

end Configuring

variable {fs : FileSystem} {id : String}

lemma objects_step (fs : FileSystem) (w : Workspace) (st : Step) :
    ∃ new, (w.step fs st).2.objects = new ++ w.objects ∧ ∀ p ∈ new, p.1 ∈ st.gives ∧
      ∀ i, p.2 = .cursor i → w.sources.length ≤ i ∧ i < (w.step fs st).2.sources.length := by
  by_cases hst : st.Configures
  · have hconfigured := configured_step fs w hst
    generalize (w.step fs st).2 = w' at hconfigured ⊢
    cases hconfigured with
    | kept => exact ⟨[], rfl, by simp⟩
    | set => exact ⟨[], rfl, by simp⟩
    | reset => exact ⟨[], rfl, by simp⟩
    | entered id settings config hid =>
      refine ⟨[(id, .scope w.active false)], rfl, ?_⟩
      rw [List.forall_mem_singleton]
      exact ⟨hid, by simp⟩
    | left id before hid =>
      refine ⟨[(id, .scope before true)], rfl, ?_⟩
      rw [List.forall_mem_singleton]
      exact ⟨hid, by simp⟩
  · obtain ⟨new, hobjects, hnew⟩ := (gains_step fs w hst).objects_eq
    exact ⟨new, hobjects, fun p hp => ⟨(hnew p hp).1, (hnew p hp).2.2⟩⟩

/-- No step takes a source away. -/
lemma length_le_step (fs : FileSystem) (w : Workspace) (st : Step) :
    w.sources.length ≤ (w.step fs st).2.sources.length := by
  by_cases hst : st.Configures
  · rw [sources_step_of_configures hst]
  · rw [(gains_step fs w hst).length_eq]
    exact Nat.le_add_right _ _

/-- Names in front of the older ones do not change the meaning of another name. -/
lemma object?_of_append {new : List (String × Object)} (h : w'.objects = new ++ w.objects)
    (hnew : ∀ p ∈ new, p.1 ≠ id) : w'.object? id = w.object? id := by
  have hnone : new.lookup id = none := by
    rw [List.lookup_eq_none_iff]
    intro p hp
    rw [bne_iff_ne]
    exact (hnew p hp).symm
  rw [object?, h, List.lookup_append, hnone, Option.none_or, object?]

/-- A name that a step does not give means what it meant before. -/
lemma object?_step {st : Step} (h : id ∉ st.gives) :
    (w.step fs st).2.object? id = w.object? id := by
  obtain ⟨new, hobjects, hnew⟩ := objects_step fs w st
  apply object?_of_append hobjects
  rintro p hp rfl
  exact h (hnew p hp).1

lemma object?_run {steps : List Step} (h : ∀ st ∈ steps, id ∉ st.gives) :
    (w.run fs steps).2.object? id = w.object? id := by
  induction steps generalizing w with
  | nil => rfl
  | cons st steps ih =>
    rw [List.forall_mem_cons] at h
    exact (ih h.2).trans (object?_step h.1)

end Workspace

end Munch
