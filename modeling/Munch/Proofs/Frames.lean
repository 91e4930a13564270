import Mathlib.Data.Nat.Init
import Munch.Workspace

/-!
# What a step leaves alone

A step touches the sources that it makes and those of the things that it is told to use. It leaves
all other sources as they are, and gives names to nothing that belongs to another source
(`Workspace.frame_step`).
-/

namespace Munch

/-- The numbers of the sources that a thing belongs to. -/
def Object.sources : Object → List Nat
  | .cursor i | .scanner i _ | .session i _ | .iterator i _ _ => [i]
  | .batch members => members.map Prod.fst
  | .scope _ _ => []

namespace Workspace

def sourcesOf (w : Workspace) (id : String) : List Nat := (w.object? id).elim [] Object.sources

def made (w w' : Workspace) : List Nat :=
  List.range' w.sources.length (w'.sources.length - w.sources.length)

/-- The sources that a step uses, or else those that it makes. -/
def touched (fs : FileSystem) (w : Workspace) (st : Step) : List Nat :=
  match st with
  | .newScanner _ id _ | .sessionOver _ id _ | .advance id _ | .scan id _ | .drain id | .close id
  | .inspect id | .iterate _ id => w.sourcesOf id
  | .iterNext id shown => w.sourcesOf id ++ shown.elim [] w.sourcesOf
  | .closeBatch id ids => w.sourcesOf id ++ ids.flatMap w.sourcesOf
  | st => w.made (w.step fs st).2

/-- Only these sources may have changed or become new, and names were given only to things that
belong to them. -/
structure Frame (used : List Nat) (w w' : Workspace) : Prop where
  sources_eq : ∀ i ∉ used, w'.sources[i]? = w.sources[i]?
  objects_eq : ∃ new, w'.objects = new ++ w.objects ∧
    ∀ p ∈ new, ∀ i ∈ p.2.sources, i ∈ used

variable {w w' w'' : Workspace} {used : List Nat}

lemma mem_sourcesOf {id : String} {i : Nat} :
    i ∈ w.sourcesOf id ↔ ∃ o, w.object? id = some o ∧ i ∈ o.sources := by
  unfold sourcesOf
  cases w.object? id <;> simp

lemma mem_of_cursor? {id : String} {i : Nat} (h : w.cursor? id = some i) : i ∈ w.sourcesOf id := by
  rw [mem_sourcesOf]
  unfold cursor? at h
  split at h <;> simp_all [Object.sources]

lemma mem_of_reader? {id : String} {i j : Nat} (h : w.reader? id = some (i, j)) :
    i ∈ w.sourcesOf id := by
  rw [mem_sourcesOf]
  unfold reader? at h
  split at h <;> simp_all [Object.sources]

lemma mem_made {i : Nat} : i ∈ w.made w' ↔ w.sources.length ≤ i ∧ i < w'.sources.length := by
  rw [made, List.mem_range'_1]
  omega

namespace Frame

lemma refl (used : List Nat) (w : Workspace) : Frame used w w := ⟨fun _ _ => rfl, [], rfl, by simp⟩

lemma trans (h : Frame used w w') (h' : Frame used w' w'') : Frame used w w'' := by
  obtain ⟨new, hobjects, hnew⟩ := h.objects_eq
  obtain ⟨new', hobjects', hnew'⟩ := h'.objects_eq
  refine ⟨fun i hi => (h'.sources_eq i hi).trans (h.sources_eq i hi), new' ++ new, ?_, ?_⟩
  · rw [hobjects', hobjects, List.append_assoc]
  · exact fun p hp => (List.mem_append.mp hp).elim (hnew' p) (hnew p)

lemma name {o : Object} (ho : ∀ i ∈ o.sources, i ∈ used) (w : Workspace) (id : String) :
    Frame used w (w.name id o) := by
  refine ⟨fun _ _ => rfl, [(id, o)], rfl, ?_⟩
  intro p hp
  rw [List.mem_singleton.mp hp]
  exact ho

lemma addSource (h : w.sources.length ∈ used) (s : Source) : Frame used w (w.addSource s) := by
  refine ⟨?_, [], rfl, by simp⟩
  intro i hi
  have hne : i ≠ w.sources.length := fun heq => hi (heq ▸ h)
  rcases Nat.lt_or_gt_of_ne hne with hlt | hgt
  · exact List.getElem?_append_left hlt
  · have hlength : (w.addSource s).sources.length = w.sources.length + 1 := by
      rw [Workspace.addSource, List.length_append, List.length_singleton]
    rw [List.getElem?_eq_none (by omega), List.getElem?_eq_none (by omega)]

lemma addSession (h : w.sources.length ∈ used) (id : String) (s : Session) :
    Frame used w (w.addSession id s) := by
  refine (addSource h (.ofSession s)).trans (name ?_ _ id)
  intro i hi
  rwa [List.mem_singleton.mp hi]

lemma onSource {α : Type} {k : Nat} (hk : k ∈ used) {f : Source → α × Source × List Record} {a : α}
    {log : List Record} (h : w.onSource k f = some (a, w', log)) : Frame used w w' := by
  rw [Workspace.onSource, Option.map_eq_some_iff] at h
  obtain ⟨s, -, heq⟩ := h
  simp only [Prod.mk.injEq] at heq
  obtain ⟨-, rfl, -⟩ := heq
  refine ⟨?_, [], rfl, by simp⟩
  intro i hi
  have hne : k ≠ i := fun heq => hi (heq ▸ hk)
  exact List.getElem?_set_ne hne

lemma onReader {α : Type} {id : String} (h : ∀ i ∈ w.sourcesOf id, i ∈ used)
    (f : Nat → Source → α × Source × List Record) (result : α → Result) :
    Frame used w (w.onReader id f result).2 := by
  unfold Workspace.onReader
  cases hreader : w.reader? id with
  | none => exact refl used w
  | some reader =>
    obtain ⟨k, j⟩ := reader
    have hk : k ∈ used := h k (mem_of_reader? hreader)
    simp only [bind, Option.bind]
    cases hon : w.onSource k (f j) with
    | none => exact refl used w
    | some done => exact onSource hk hon

lemma closeWith {k : Nat} (hk : k ∈ used) (how : Source.Action) (id : String) :
    Frame used w (step.closeWith w k how id).2 := by
  unfold step.closeWith
  cases hon : w.onSource k fun s => ((), (s.act how).source, (s.act how).log) with
  | none => exact refl used w
  | some done => exact onSource hk hon

lemma closeSessions {members : List (Nat × Nat)} (h : ∀ m ∈ members, m.1 ∈ used) :
    Frame used w (w.closeSessions members).1 := by
  induction members with
  | nil => exact refl used w
  | cons member members ih =>
    rw [List.forall_mem_cons] at h
    have hrest := ih h.2
    simp only [Workspace.closeSessions]
    cases hon : (w.closeSessions members).1.onSource member.1
        fun s => ((), (s.act .closeSession).source, (s.act .closeSession).log) with
    | none => exact hrest
    | some done => exact hrest.trans (onSource h.1 hon)

lemma attach {id cursor : String} {object : Nat → Nat → Object}
    (hobject : ∀ i j, (object i j).sources = [i]) (h : ∀ i ∈ w.sourcesOf cursor, i ∈ used)
    (config : Config) : Frame used w (w.attach id cursor config object).2 := by
  unfold Workspace.attach
  cases hcursor : w.cursor? cursor with
  | none => exact refl used w
  | some k =>
    have hk : k ∈ used := h k (mem_of_cursor? hcursor)
    simp only [bind, Option.bind]
    cases hsource : w.sources[k]? with
    | none => exact refl used w
    | some s =>
      dsimp only
      cases hon : w.onSource k fun s => ((), (s.act (.attach config)).source, []) with
      | none => exact refl used w
      | some done =>
        refine (onSource hk hon).trans (name ?_ _ id)
        intro i hi
        rw [hobject, List.mem_singleton] at hi
        rwa [hi]

lemma withConfig (settings : Settings) {k : Config → Reply × Workspace}
    (hk : ∀ config, Frame used w (k config).2) : Frame used w (w.withConfig settings k).2 := by
  unfold Workspace.withConfig
  cases w.config settings with
  | ok config => exact hk config
  | error e => exact refl used w

lemma finish {shown : Option String} (result : Result) (log : List Record) :
    Frame used w (iterNext.finish shown w result log).2 := by
  unfold iterNext.finish
  cases shown with
  | none => exact refl used w
  | some other =>
    dsimp only
    split <;> exact refl used w

lemma iterNext {id : String} (h : ∀ i ∈ w.sourcesOf id, i ∈ used) (shown : Option String) :
    Frame used w (w.iterNext id shown).2 := by
  unfold Workspace.iterNext
  cases hobject : w.object? id with
  | none => exact refl used w
  | some object =>
    cases object with
    | iterator k j finished =>
      have hk : k ∈ used := h k (mem_sourcesOf.mpr ⟨_, hobject, List.mem_singleton_self k⟩)
      cases finished with
      | true => exact finish _ _
      | false =>
        dsimp only
        cases hon : w.onSource k fun s =>
            ((s.act (.scan j)).yield, (s.act (.scan j)).source, (s.act (.scan j)).log) with
        | none => exact refl used w
        | some pulled =>
          obtain ⟨yield, u, log⟩ := pulled
          have hu := onSource hk hon
          cases yield with
          | token t =>
            refine (hu.trans (name ?_ u id)).trans (finish _ _)
            intro i hi
            rwa [List.mem_singleton.mp hi]
          | _ => exact refl used w
    | _ => exact refl used w

end Frame

/-- Nothing changed but that sources were added, and things that belong to them were named. -/
def Grows (w w' : Workspace) : Prop := Frame (w.made w') w w'

namespace Grows

lemma refl (w : Workspace) : Grows w w := Frame.refl _ w

lemma withConfig (settings : Settings) {k : Config → Reply × Workspace}
    (hk : ∀ config, Grows w (k config).2) : Grows w (w.withConfig settings k).2 := by
  unfold Workspace.withConfig
  cases w.config settings with
  | ok config => exact hk config
  | error e => exact refl w

lemma mem_made_addSource (w : Workspace) (s : Source) :
    w.sources.length ∈ w.made (w.addSource s) := by
  rw [mem_made, addSource, List.length_append, List.length_singleton]
  omega

lemma addSource (w : Workspace) (s : Source) (id : String) :
    Grows w ((w.addSource s).name id (.cursor w.sources.length)) := by
  have hmade := mem_made_addSource w s
  refine (Frame.addSource hmade s).trans (Frame.name ?_ _ id)
  intro i hi
  rwa [List.mem_singleton.mp hi]

lemma addSession (w : Workspace) (id : String) (s : Session) : Grows w (w.addSession id s) :=
  Frame.addSession (mem_made_addSource w (.ofSession s)) id s

lemma name_scope (w : Workspace) (id : String) (before : Config) (left : Bool) (active : Config) :
    Grows w { w.name id (.scope before left) with active } := by
  refine ⟨fun _ _ => rfl, [(id, .scope before left)], rfl, ?_⟩
  intro p hp
  rw [List.mem_singleton.mp hp]
  simp [Object.sources]

lemma length_addBatch (w : Workspace) (sessions : List Session) (ids : List String) :
    (w.addBatch sessions ids).1.sources.length = w.sources.length + sessions.length := by
  induction sessions generalizing w ids with
  | nil => rfl
  | cons s sessions ih =>
    cases ids with
    | nil =>
      have hrest := ih (w.addSource (.ofSession s)) []
      rw [Workspace.addSource, List.length_append, List.length_singleton] at hrest
      exact hrest.trans (by rw [List.length_cons]; omega)
    | cons id ids =>
      have hrest := ih (w.addSession id s) ids
      rw [Workspace.addSession, Workspace.name, Workspace.addSource, List.length_append,
        List.length_singleton] at hrest
      exact hrest.trans (by rw [List.length_cons]; omega)

lemma frame_addBatch {sessions : List Session}
    (h : ∀ k, w.sources.length ≤ k → k < w.sources.length + sessions.length → k ∈ used)
    (ids : List String) : Frame used w (w.addBatch sessions ids).1 ∧
      ∀ m ∈ (w.addBatch sessions ids).2, m.1 ∈ used := by
  induction sessions generalizing w ids with
  | nil => exact ⟨.refl used w, by simp [Workspace.addBatch]⟩
  | cons s sessions ih =>
    rw [List.length_cons] at h
    have hfirst : w.sources.length ∈ used := h _ (Nat.le_refl _) (by omega)
    have hlength : (w.addSource (.ofSession s)).sources.length = w.sources.length + 1 := by
      rw [Workspace.addSource, List.length_append, List.length_singleton]
    have hmore : ∀ k, w.sources.length + 1 ≤ k → k < w.sources.length + 1 + sessions.length →
        k ∈ used := fun k hfrom hto => h k (by omega) (by omega)
    cases ids with
    | nil =>
      obtain ⟨hframe, hmembers⟩ := ih (w := w.addSource (.ofSession s)) (hlength ▸ hmore) []
      refine ⟨(Frame.addSource hfirst _).trans hframe, ?_⟩
      exact List.forall_mem_cons.mpr ⟨hfirst, hmembers⟩
    | cons id ids =>
      obtain ⟨hframe, hmembers⟩ := ih (w := w.addSession id s) (hlength ▸ hmore) ids
      refine ⟨(Frame.addSession hfirst id s).trans hframe, ?_⟩
      exact List.forall_mem_cons.mpr ⟨hfirst, hmembers⟩

lemma addBatch (w : Workspace) (id : String) (sessions : List Session) (ids : List String) :
    Grows w ((w.addBatch sessions ids).1.name id (.batch (w.addBatch sessions ids).2)) := by
  have hmade : ∀ k, w.sources.length ≤ k → k < w.sources.length + sessions.length →
      k ∈ w.made ((w.addBatch sessions ids).1.name id (.batch (w.addBatch sessions ids).2)) := by
    intro k hfrom hto
    rw [mem_made]
    exact ⟨hfrom, Nat.lt_of_lt_of_eq hto (length_addBatch w sessions ids).symm⟩
  obtain ⟨hframe, hmembers⟩ := frame_addBatch hmade ids
  refine hframe.trans (Frame.name ?_ _ id)
  intro i hi
  obtain ⟨m, hm, rfl⟩ := List.mem_map.mp hi
  exact hmembers m hm

end Grows

/-- A step leaves alone what it does not touch. -/
theorem frame_step (fs : FileSystem) (w : Workspace) (st : Step) :
    Frame (w.touched fs st) w (w.step fs st).2 := by
  -- a step that names nothing to use touches what it made, so its frame is `Grows`
  cases st with
  | newCursor id text source => exact Grows.addSource w _ id
  | openCursor id path encoding =>
    change Grows w (w.step fs (.openCursor id path encoding)).2
    simp only [step]
    cases Cursor.openFile fs path encoding with
    | ok c => exact Grows.addSource w _ id
    | error e => exact .refl w
  | newScanner id cursor settings =>
    exact .withConfig settings fun config => .attach (fun _ _ => rfl) (fun _ hi => hi) config
  | newSession id text source settings =>
    exact Grows.withConfig settings fun config => .addSession w id _
  | sessionOver id cursor settings =>
    exact .withConfig settings fun config => .attach (fun _ _ => rfl) (fun _ hi => hi) config
  | openSession id path settings =>
    apply Grows.withConfig settings
    intro config
    rcases Session.openFile fs config path with ⟨e | s, log⟩
    · exact .refl w
    · exact .addSession w id s
  | advance id times =>
    simp only [step]
    cases hcursor : w.cursor? id with
    | none => exact .refl _ w
    | some k =>
      have hk : k ∈ w.sourcesOf id := mem_of_cursor? hcursor
      simp only [bind, Option.bind]
      cases hon : w.onSource k fun s =>
          (Source.reads (s.run (List.replicate times .advance)).1,
            (s.run (List.replicate times .advance)).2.1,
            (s.run (List.replicate times .advance)).2.2) with
      | none => exact .refl _ w
      | some done => exact .onSource hk hon
  | scan id times => exact .onReader (fun _ hi => hi) _ .tokens
  | drain id => exact .onReader (fun _ hi => hi) _ .tokens
  | close id =>
    simp only [step]
    cases hobject : w.object? id with
    | none => exact .refl _ w
    | some object =>
      have hused : ∀ i ∈ object.sources, i ∈ w.sourcesOf id :=
        fun i hi => mem_sourcesOf.mpr ⟨object, hobject, hi⟩
      cases object with
      | cursor k => exact .closeWith (hused k (List.mem_singleton_self k)) _ id
      | session k j => exact .closeWith (hused k (List.mem_singleton_self k)) _ id
      | _ => exact .refl _ w
  | inspect id =>
    simp only [step]
    cases w.view? id <;> exact .refl _ w
  | iterate id reader =>
    simp only [step]
    cases hreader : w.reader? reader with
    | none => exact .refl _ w
    | some k =>
      refine .name ?_ w id
      intro i hi
      rw [List.mem_singleton.mp hi]
      exact mem_of_reader? hreader
  | iterNext id shown => exact .iterNext (fun _ hi => List.mem_append_left _ hi) shown
  | openBatch id paths ids settings =>
    apply Grows.withConfig settings
    intro config
    rcases Session.openFiles fs config paths with ⟨e | sessions, log⟩
    · exact .refl w
    · exact .addBatch w id sessions ids
  | closeBatch id ids =>
    simp only [step]
    cases hobject : w.object? id with
    | none => exact .refl _ w
    | some object =>
      cases object with
      | batch members =>
        have hclosed : Frame (w.touched fs (.closeBatch id ids)) w (w.closeSessions members).1 := by
          apply Frame.closeSessions
          intro m hm
          refine List.mem_append_left _ (mem_sourcesOf.mpr ⟨_, hobject, ?_⟩)
          exact List.mem_map_of_mem hm
        dsimp only
        cases (w.closeSessions members).1.renderSessions ids <;> exact hclosed
      | _ => exact .refl _ w
  | tokenize text source settings => exact Grows.withConfig settings fun config => .refl w
  | tokenizeFile path settings =>
    apply Grows.withConfig settings
    intro config
    rcases Munch.tokenizeFile fs config path with ⟨e | tokens, log⟩ <;> exact .refl w
  | activeConfig => exact .refl _ w
  | setConfig settings =>
    exact Grows.withConfig settings fun config => ⟨fun _ _ => rfl, [], rfl, by simp⟩
  | resetConfig => exact ⟨fun _ _ => rfl, [], rfl, by simp⟩
  | enterScope id settings =>
    exact Grows.withConfig settings fun config => .name_scope w id w.active false config
  | leaveScope id =>
    change Grows w (w.step fs (.leaveScope id)).2
    simp only [step]
    cases w.object? id with
    | none => exact .refl w
    | some object =>
      cases object with
      | scope before left =>
        cases left with
        | false => exact .name_scope w id before true before
        | true => exact ⟨fun _ _ => rfl, [], rfl, by simp⟩
      | _ => exact .refl w
  | threadConfig => exact .refl _ w

end Workspace

end Munch
