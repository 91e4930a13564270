import Mathlib.Data.List.Forall2
import Munch.Proofs.Frames
import Munch.Proofs.SourceActions

/-!
# Independence of sources

The part of a run that touches one source can be run by itself, on the configurations that its
readers were made with (`Workspace.own`). It gives the same replies and leaves the source and all
that belongs to it in the same state (`Workspace.run_own`): neither other sources nor the active
configuration make a difference once a reader is made.
-/

namespace Munch

def Object.first : Object → Object
  | .cursor _ => .cursor 0
  | .scanner _ j => .scanner 0 j
  | .session _ j => .session 0 j
  | .iterator _ j finished => .iterator 0 j finished
  | .batch members => .batch members
  | .scope before left => .scope before left

/-- A step that works on one thing at a time: no batch, and no look at another thing. -/
def Step.Single : Step → Prop
  | .openBatch _ _ _ _ | .closeBatch _ _ | .iterNext _ (some _) => False
  | _ => True

def Step.Configures : Step → Prop
  | .setConfig _ | .resetConfig | .enterScope _ _ | .leaveScope _ => True
  | _ => False

namespace Workspace

/-- The same configuration in full, if it is one. -/
def inFull (w : Workspace) (settings : Settings) : Settings :=
  match w.config settings with
  | .ok config => some config.toEntries
  | .error _ => settings

/-- The step with the configuration that it means given in full. -/
def pinned (w : Workspace) : Step → Step
  | .newScanner id cursor settings => .newScanner id cursor (w.inFull settings)
  | .newSession id text source settings => .newSession id text source (w.inFull settings)
  | .sessionOver id cursor settings => .sessionOver id cursor (w.inFull settings)
  | .openSession id path settings => .openSession id path (w.inFull settings)
  | st => st

end Workspace

/-- A step of a run, with the workspace that it finds. -/
structure Moment where
  before : Workspace
  step : Step

namespace Moment

def reply (fs : FileSystem) (m : Moment) : Reply := (m.before.step fs m.step).1

def after (fs : FileSystem) (m : Moment) : Workspace := (m.before.step fs m.step).2

/-- The step makes or uses the source with number `i` or something that belongs to it. -/
def touches (fs : FileSystem) (i : Nat) (m : Moment) : Bool :=
  (m.before.touched fs m.step).contains i

end Moment

namespace Workspace

def moments (fs : FileSystem) (w : Workspace) : List Step → List Moment
  | [] => []
  | st :: rest => ⟨w, st⟩ :: (w.step fs st).2.moments fs rest

def share (fs : FileSystem) (i : Nat) (w : Workspace) (steps : List Step) : List Moment :=
  (w.moments fs steps).filter (·.touches fs i)

/-- The steps of a run that touch one source, on the configurations they found. -/
def own (fs : FileSystem) (i : Nat) (w : Workspace) (steps : List Step) : List Step :=
  (w.share fs i steps).map fun m => m.before.pinned m.step

/-- The first source of one workspace is the source with number `i` of the other, and what is named
there belongs to it as well. -/
structure Mirrors (i : Nat) (w w' : Workspace) : Prop where
  source_eq : w'.sources[0]? = w.sources[i]?
  object_eq : ∀ id o, w.object? id = some o → i ∈ o.sources → w'.object? id = some o.first

structure Agree (i : Nat) (r r' : Reply × Workspace) : Prop where
  reply_eq : r'.1 = r.1
  mirrors : Mirrors i r.2 r'.2

variable {fs : FileSystem} {i : Nat} {w w' u u' : Workspace} {id : String}

lemma sources_step_of_configures {st : Step} (hst : st.Configures) :
    (w.step fs st).2.sources = w.sources := by
  cases st with
  | setConfig settings =>
    simp only [step, withConfig]
    cases w.config settings <;> rfl
  | resetConfig => rfl
  | enterScope id settings =>
    simp only [step, withConfig]
    cases w.config settings <;> rfl
  | leaveScope id =>
    simp only [step]
    cases w.object? id with
    | none => rfl
    | some o =>
      cases o with
      | scope before left => cases left <;> rfl
      | _ => rfl
  | _ => exact hst.elim

namespace Mirrors

lemma cursor? (h : Mirrors i w w') (hid : i ∈ w.sourcesOf id) :
    (w.cursor? id = some i ∧ w'.cursor? id = some 0) ∨
      (w.cursor? id = none ∧ w'.cursor? id = none) := by
  obtain ⟨o, ho, hi⟩ := mem_sourcesOf.mp hid
  have ho' := h.object_eq id o ho hi
  simp only [Workspace.cursor?, ho, ho']
  cases o with
  | cursor k =>
    obtain rfl : i = k := List.mem_singleton.mp hi
    exact .inl ⟨rfl, rfl⟩
  | _ => exact .inr ⟨rfl, rfl⟩

lemma reader? (h : Mirrors i w w') (hid : i ∈ w.sourcesOf id) :
    (∃ j, w.reader? id = some (i, j) ∧ w'.reader? id = some (0, j)) ∨
      (w.reader? id = none ∧ w'.reader? id = none) := by
  obtain ⟨o, ho, hi⟩ := mem_sourcesOf.mp hid
  have ho' := h.object_eq id o ho hi
  simp only [Workspace.reader?, ho, ho']
  cases o with
  | scanner k j =>
    obtain rfl : i = k := List.mem_singleton.mp hi
    exact .inl ⟨j, rfl, rfl⟩
  | session k j =>
    obtain rfl : i = k := List.mem_singleton.mp hi
    exact .inl ⟨j, rfl, rfl⟩
  | _ => exact .inr ⟨rfl, rfl⟩

lemma view? (h : Mirrors i w w') (hid : i ∈ w.sourcesOf id) : w'.view? id = w.view? id := by
  obtain ⟨o, ho, hi⟩ := mem_sourcesOf.mp hid
  have ho' := h.object_eq id o ho hi
  have hsource := h.source_eq
  simp only [Workspace.view?, ho, ho']
  cases o with
  | cursor k =>
    obtain rfl : i = k := List.mem_singleton.mp hi
    simp only [Object.first, hsource]
  | scanner k j =>
    obtain rfl : i = k := List.mem_singleton.mp hi
    simp only [Object.first, hsource]
  | session k j =>
    obtain rfl : i = k := List.mem_singleton.mp hi
    simp only [Object.first, hsource]
  | _ => rfl

lemma object?_name (w : Workspace) (id id' : String) (o : Object) :
    (w.name id o).object? id' = if id' = id then some o else w.object? id' := by
  rw [object?, Workspace.name, List.lookup_cons]
  by_cases hid : id' = id
  · rw [if_pos hid, beq_iff_eq.mpr hid]
  · rw [if_neg hid, beq_false_of_ne hid]
    rfl

lemma name (h : Mirrors i w w') (id : String) (o : Object) :
    Mirrors i (w.name id o) (w'.name id o.first) := by
  refine ⟨h.source_eq, fun id' o' ho' hi => ?_⟩
  rw [object?_name] at ho' ⊢
  by_cases hid : id' = id
  · rw [if_pos hid, Option.some_inj] at ho' ⊢
    rw [ho']
  · rw [if_neg hid] at ho' ⊢
    exact h.object_eq id' o' ho' hi

lemma of_frame (h : Mirrors i w w') {used : List Nat} (hframe : Frame used w u) (hi : i ∉ used) :
    Mirrors i u w' := by
  obtain ⟨new, hobjects, hnew⟩ := hframe.objects_eq
  refine ⟨h.source_eq.trans (hframe.sources_eq i hi).symm, fun id o ho hmem => ?_⟩
  rw [object?, hobjects, List.lookup_append] at ho
  cases hlookup : new.lookup id with
  | none =>
    rw [hlookup, Option.none_or] at ho
    exact h.object_eq id o ho hmem
  | some o' =>
    rw [hlookup, Option.some_or, Option.some_inj] at ho
    subst ho
    have hpair : (id, o') ∈ new := by
      obtain ⟨before, after, rfl, -⟩ := List.lookup_eq_some_iff.mp hlookup
      simp
    exact absurd (hnew _ hpair i hmem) hi

lemma sources_eq_nil (h : Mirrors i w w') (hi : w.sources.length = i) : w'.sources = [] := by
  have hnone := h.source_eq
  rwa [← hi, List.getElem?_eq_none (Nat.le_refl _), List.getElem?_eq_none_iff, Nat.le_zero,
    List.length_eq_zero_iff] at hnone

lemma addSource (h : Mirrors i w w') (hi : w.sources.length = i) (s : Source) :
    Mirrors i (w.addSource s) (w'.addSource s) := by
  refine ⟨?_, h.object_eq⟩
  rw [Workspace.addSource, Workspace.addSource, h.sources_eq_nil hi, ← hi,
    List.getElem?_concat_length]
  rfl

/-- The same work on the source, or none where there is no such source. -/
lemma onSource {α : Type} (h : Mirrors i w w') (f : Source → α × Source × List Record) :
    (w.onSource i f = none ∧ w'.onSource 0 f = none) ∨
      ∃ a u u' log, w.onSource i f = some (a, u, log) ∧ w'.onSource 0 f = some (a, u', log) ∧
        Mirrors i u u' ∧ ∀ id, u.sourcesOf id = w.sourcesOf id := by
  have hsource := h.source_eq
  cases hs : w.sources[i]? with
  | none =>
    left
    rw [Workspace.onSource, Workspace.onSource, hsource, hs]
    exact ⟨rfl, rfl⟩
  | some s =>
    right
    rw [Workspace.onSource, Workspace.onSource, hsource, hs]
    refine ⟨_, _, _, _, rfl, rfl, ⟨?_, h.object_eq⟩, fun id => rfl⟩
    obtain ⟨hi, -⟩ := List.getElem?_eq_some_iff.mp hs
    obtain ⟨hfirst, -⟩ := List.getElem?_eq_some_iff.mp (hsource.trans hs)
    exact (List.getElem?_set_self hfirst).trans (List.getElem?_set_self hi).symm

lemma reply_some (h : Mirrors i w w') (result : Result) (hid : i ∈ w.sourcesOf id)
    (log : List Record) :
    Agree i (w.reply result (some id) log) (w'.reply result (some id) log) := by
  refine ⟨?_, h⟩
  have hview := h.view? hid
  simp only [reply, Option.bind_some, hview]

lemma reply_none (h : Mirrors i w w') (result : Result) (log : List Record) :
    Agree i (w.reply result none log) (w'.reply result none log) := ⟨rfl, h⟩

lemma fail (h : Mirrors i w w') (e : Failure) (log : List Record) :
    Agree i (w.fail e log) (w'.fail e log) := ⟨rfl, h⟩

lemma mem_sourcesOf_name {o : Object} (ho : i ∈ o.sources) (w : Workspace) (id : String) :
    i ∈ (w.name id o).sourcesOf id := by
  rw [mem_sourcesOf]
  exact ⟨o, by rw [object?_name, if_pos rfl], ho⟩

lemma config_inFull (w w' : Workspace) (settings : Settings) :
    w'.config (w.inFull settings) = w.config settings := by
  cases settings with
  | none => exact Config.ofEntries_toEntries w.active
  | some entries =>
    unfold inFull
    cases hconfig : w.config (some entries) with
    | ok config => exact Config.ofEntries_toEntries config
    | error e => exact hconfig

lemma withConfig (h : Mirrors i w w') (settings : Settings) {k k' : Config → Reply × Workspace}
    (hk : ∀ config, w.withConfig settings k = k config → Agree i (k config) (k' config)) :
    Agree i (w.withConfig settings k) (w'.withConfig (w.inFull settings) k') := by
  unfold Workspace.withConfig at hk ⊢
  rw [config_inFull]
  cases hconfig : w.config settings with
  | ok config =>
    rw [hconfig] at hk
    exact hk config rfl
  | error e => exact h.fail _ []

lemma attach (h : Mirrors i w w') (id : String) {cursor : String}
    (hcursor : i ∈ w.sourcesOf cursor) (config : Config) {object : Nat → Nat → Object}
    (hobject : ∀ j, (object i j).first = object 0 j ∧ (object i j).sources = [i]) :
    Agree i (w.attach id cursor config object) (w'.attach id cursor config object) := by
  unfold Workspace.attach
  have hsource := h.source_eq
  rcases h.cursor? hcursor with ⟨hc, hc'⟩ | ⟨hc, hc'⟩
  · cases hs : w.sources[i]? with
    | none =>
      simp only [hc, hc', hsource, hs, bind, Option.bind]
      exact h.fail _ []
    | some s =>
      rcases h.onSource fun s => ((), (s.act (.attach config)).source, []) with
        ⟨hon, hon'⟩ | ⟨a, u, u', log, hon, hon', hu, -⟩
      · simp only [hc, hc', hsource, hs, hon, hon', bind, Option.bind]
        exact h.fail _ []
      · obtain ⟨hfirst, hsources⟩ := hobject s.scanners.length
        simp only [hc, hc', hsource, hs, hon, hon', bind, Option.bind, ← hfirst]
        apply (hu.name id (object i s.scanners.length)).reply_some
        exact mem_sourcesOf_name (by simp [hsources]) u id
  · simp only [hc, hc', bind, Option.bind]
    exact h.fail _ []

lemma onReader {α : Type} (h : Mirrors i w w') (hid : i ∈ w.sourcesOf id)
    (f : Nat → Source → α × Source × List Record) (result : α → Result) :
    Agree i (w.onReader id f result) (w'.onReader id f result) := by
  unfold Workspace.onReader
  rcases h.reader? hid with ⟨j, hr, hr'⟩ | ⟨hr, hr'⟩
  · rcases h.onSource (f j) with ⟨hon, hon'⟩ | ⟨a, u, u', log, hon, hon', hu, hnames⟩
    · simp only [hr, hr', hon, hon', bind, Option.bind]
      exact h.fail _ []
    · simp only [hr, hr', hon, hon', bind, Option.bind]
      exact hu.reply_some _ (hnames id ▸ hid) log
  · simp only [hr, hr', bind, Option.bind]
    exact h.fail _ []

lemma closeWith (h : Mirrors i w w') (hid : i ∈ w.sourcesOf id) (how : Source.Action) :
    Agree i (step.closeWith w i how id) (step.closeWith w' 0 how id) := by
  unfold step.closeWith
  rcases h.onSource fun s => ((), (s.act how).source, (s.act how).log) with
    ⟨hon, hon'⟩ | ⟨a, u, u', log, hon, hon', hu, hnames⟩
  · simp only [hon, hon']
    exact h.fail _ []
  · simp only [hon, hon']
    exact hu.reply_some _ (hnames id ▸ hid) log

lemma iterNext (h : Mirrors i w w') (hid : i ∈ w.sourcesOf id) :
    Agree i (w.iterNext id none) (w'.iterNext id none) := by
  obtain ⟨o, ho, hi⟩ := mem_sourcesOf.mp hid
  have ho' := h.object_eq id o ho hi
  simp only [Workspace.iterNext, ho, ho']
  cases o with
  | iterator k j finished =>
    obtain rfl : i = k := List.mem_singleton.mp hi
    cases finished with
    | true => exact h.reply_none _ _
    | false =>
      rcases h.onSource fun s =>
          ((s.act (.scan j)).yield, (s.act (.scan j)).source, (s.act (.scan j)).log) with
        ⟨hon, hon'⟩ | ⟨a, u, u', log, hon, hon', hu, -⟩
      · simp only [Object.first, hon, hon']
        exact h.fail _ []
      · simp only [Object.first, hon, hon']
        cases a with
        | token t => exact (hu.name id (.iterator i j t.isEof)).reply_none _ _
        | _ => exact h.fail _ []
  | _ => exact h.fail _ []

lemma added (h : Mirrors i w w') (hi : w.sources.length = i) (s : Source) (id : String)
    (object : Nat → Object) (hobject : ∀ k, (object k).first = object 0 ∧ (object k).sources = [k])
    (log : List Record) :
    Agree i (((w.addSource s).name id (object w.sources.length)).reply .done (some id) log)
      (((w'.addSource s).name id (object w'.sources.length)).reply .done (some id) log) := by
  have hzero : w'.sources.length = 0 := by
    rw [h.sources_eq_nil hi]
    rfl
  obtain ⟨hfirst, hsources⟩ := hobject w.sources.length
  rw [hzero, ← hfirst]
  apply ((h.addSource hi s).name id (object w.sources.length)).reply_some
  refine mem_sourcesOf_name ?_ (w.addSource s) id
  rw [hsources, hi]
  exact List.mem_singleton_self i

end Mirrors

lemma not_mem_made (h : u.sources = w.sources) : i ∉ w.made u := by
  rw [mem_made, h]
  omega

lemma length_eq_of_mem_made {s : Source} (hi : i ∈ w.made u) (h : u.sources = w.sources ++ [s]) :
    w.sources.length = i := by
  rw [mem_made, h, List.length_append, List.length_singleton] at hi
  omega

namespace Mirrors

lemma openCursor (h : Mirrors i w w') {path : String} {encoding : Value}
    (hi : i ∈ w.made (w.step fs (.openCursor id path encoding)).2) :
    Agree i (w.step fs (.openCursor id path encoding))
      (w'.step fs (.openCursor id path encoding)) := by
  simp only [Workspace.step] at hi ⊢
  cases hopen : Cursor.openFile fs path encoding with
  | ok c =>
    rw [hopen] at hi
    exact h.added (length_eq_of_mem_made hi rfl) _ id .cursor (fun _ => ⟨rfl, rfl⟩) []
  | error e =>
    rw [hopen] at hi
    exact absurd hi (not_mem_made rfl)

lemma advance (h : Mirrors i w w') (hid : i ∈ w.sourcesOf id) (times : Nat) :
    Agree i (w.step fs (.advance id times)) (w'.step fs (.advance id times)) := by
  simp only [Workspace.step]
  rcases h.cursor? hid with ⟨hc, hc'⟩ | ⟨hc, hc'⟩
  · rcases h.onSource fun s =>
        (Source.reads (s.run (List.replicate times .advance)).1,
          (s.run (List.replicate times .advance)).2.1,
          (s.run (List.replicate times .advance)).2.2) with
      ⟨hon, hon'⟩ | ⟨a, u, u', log, hon, hon', hu, hnames⟩
    · simp only [hc, hc', hon, hon', bind, Option.bind]
      exact h.fail _ []
    · simp only [hc, hc', hon, hon', bind, Option.bind]
      exact hu.reply_some _ (hnames id ▸ hid) log
  · simp only [hc, hc', bind, Option.bind]
    exact h.fail _ []

lemma close (h : Mirrors i w w') (hid : i ∈ w.sourcesOf id) :
    Agree i (w.step fs (.close id)) (w'.step fs (.close id)) := by
  obtain ⟨o, ho, hi⟩ := mem_sourcesOf.mp hid
  have ho' := h.object_eq id o ho hi
  simp only [Workspace.step, ho, ho']
  cases o with
  | cursor k =>
    obtain rfl : i = k := List.mem_singleton.mp hi
    exact h.closeWith hid .closeCursor
  | session k j =>
    obtain rfl : i = k := List.mem_singleton.mp hi
    exact h.closeWith hid .closeSession
  | _ => exact h.fail _ []

lemma iterate (h : Mirrors i w w') {reader : String} (hid : i ∈ w.sourcesOf reader) :
    Agree i (w.step fs (.iterate id reader)) (w'.step fs (.iterate id reader)) := by
  simp only [Workspace.step]
  rcases h.reader? hid with ⟨j, hr, hr'⟩ | ⟨hr, hr'⟩
  · simp only [hr, hr']
    apply (h.name id (.iterator i j false)).reply_some
    obtain ⟨o, ho, hi⟩ := mem_sourcesOf.mp hid
    -- the iterator may have been given the name of the reader
    by_cases hname : reader = id
    · rw [hname]
      exact mem_sourcesOf_name (List.mem_singleton_self i) w id
    · rw [mem_sourcesOf]
      exact ⟨o, by rw [object?_name, if_neg hname, ho], hi⟩
  · simp only [hr, hr']
    exact h.fail _ []

/-- A step that touches the source does the same in both workspaces, on the configuration that it
means. -/
theorem step (h : Mirrors i w w') {st : Step} (hst : st.Single) (hi : i ∈ w.touched fs st) :
    Agree i (w.step fs st) (w'.step fs (w.pinned st)) := by
  cases st with
  | newCursor id text source =>
    exact h.added (length_eq_of_mem_made hi rfl) _ id .cursor (fun _ => ⟨rfl, rfl⟩) []
  | openCursor id path encoding => exact h.openCursor hi
  | newScanner id cursor settings =>
    exact h.withConfig settings fun config _ => h.attach id hi config fun _ => ⟨rfl, rfl⟩
  | newSession id text source settings =>
    apply h.withConfig settings
    intro config hsame
    simp only [touched, Workspace.step, hsame] at hi
    exact h.added (length_eq_of_mem_made hi rfl) _ id (.session · 0) (fun _ => ⟨rfl, rfl⟩) []
  | sessionOver id cursor settings =>
    exact h.withConfig settings fun config _ => h.attach id hi config fun _ => ⟨rfl, rfl⟩
  | openSession id path settings =>
    apply h.withConfig settings
    intro config hsame
    simp only [touched, Workspace.step, hsame] at hi
    rcases hopen : Session.openFile fs config path with ⟨e | s, log⟩
    · rw [hopen] at hi
      exact absurd hi (not_mem_made rfl)
    · rw [hopen] at hi
      exact h.added (length_eq_of_mem_made hi rfl) _ id (.session · 0) (fun _ => ⟨rfl, rfl⟩) log
  | advance id times => exact h.advance hi times
  | scan id times =>
    simp only [Workspace.pinned, Workspace.step]
    exact h.onReader hi _ .tokens
  | drain id =>
    simp only [Workspace.pinned, Workspace.step]
    exact h.onReader hi _ .tokens
  | close id => exact h.close hi
  | inspect id =>
    simp only [Workspace.pinned, Workspace.step, h.view? hi]
    cases w.view? id with
    | none => exact h.fail _ []
    | some view => exact h.reply_some .done hi []
  | iterate id reader => exact h.iterate hi
  | iterNext id shown =>
    cases shown with
    | none => exact h.iterNext ((List.mem_append.mp hi).resolve_right List.not_mem_nil)
    | some other => exact hst.elim
  | openBatch id paths ids settings => exact hst.elim
  | closeBatch id ids => exact hst.elim
  | tokenize text source settings =>
    refine absurd hi (not_mem_made ?_)
    simp only [Workspace.step, Workspace.withConfig]
    cases w.config settings <;> rfl
  | tokenizeFile path settings =>
    refine absurd hi (not_mem_made ?_)
    simp only [Workspace.step, Workspace.withConfig]
    cases w.config settings with
    | ok config =>
      dsimp only
      rcases Munch.tokenizeFile fs config path with ⟨e | tokens, log⟩ <;> rfl
    | error e => rfl
  | activeConfig => exact absurd hi (not_mem_made rfl)
  | setConfig settings => exact absurd hi (not_mem_made (sources_step_of_configures trivial))
  | resetConfig => exact absurd hi (not_mem_made (sources_step_of_configures trivial))
  | enterScope id settings => exact absurd hi (not_mem_made (sources_step_of_configures trivial))
  | leaveScope id => exact absurd hi (not_mem_made (sources_step_of_configures trivial))
  | threadConfig => exact absurd hi (not_mem_made rfl)

end Mirrors

lemma share_cons (fs : FileSystem) (i : Nat) (w : Workspace) (st : Step) (steps : List Step) :
    w.share fs i (st :: steps) =
      (if i ∈ w.touched fs st then [⟨w, st⟩] else []) ++ (w.step fs st).2.share fs i steps := by
  by_cases hi : i ∈ w.touched fs st
  · have hkeep : Moment.touches fs i ⟨w, st⟩ = true := List.contains_iff_mem.mpr hi
    rw [share, moments, List.filter_cons_of_pos hkeep, if_pos hi]
    rfl
  · have hdrop : ¬ Moment.touches fs i ⟨w, st⟩ = true := fun h => hi (List.contains_iff_mem.mp h)
    rw [share, moments, List.filter_cons_of_neg hdrop, if_neg hi]
    rfl

lemma run_cons (fs : FileSystem) (w : Workspace) (st : Step) (steps : List Step) :
    w.run fs (st :: steps) = ((w.step fs st).1 :: ((w.step fs st).2.run fs steps).1,
      ((w.step fs st).2.run fs steps).2) := rfl

theorem Mirrors.run (h : Mirrors i w w') {steps : List Step}
    (hsingle : ∀ m ∈ w.share fs i steps, m.step.Single) :
    (w'.run fs (w.own fs i steps)).1 = (w.share fs i steps).map (Moment.reply fs) ∧
      List.Forall₂ (fun m m' => Mirrors i (m.after fs) (m'.after fs)) (w.share fs i steps)
        (w'.moments fs (w.own fs i steps)) ∧
      Mirrors i (w.run fs steps).2 (w'.run fs (w.own fs i steps)).2 := by
  induction steps generalizing w w' with
  | nil => exact ⟨rfl, .nil, h⟩
  | cons st steps ih =>
    rw [own] at *
    rw [share_cons] at hsingle ⊢
    by_cases hi : i ∈ w.touched fs st
    · rw [if_pos hi, List.singleton_append, List.forall_mem_cons] at hsingle
      have hagree := h.step hsingle.1 hi
      obtain ⟨hreplies, hmoments, hlast⟩ := ih hagree.mirrors hsingle.2
      rw [if_pos hi, List.singleton_append, List.map_cons, List.map_cons, run_cons, run_cons,
        moments]
      refine ⟨?_, .cons hagree.mirrors hmoments, hlast⟩
      exact congrArg₂ List.cons hagree.reply_eq hreplies
    · -- only the whole run takes this step, and its frame leaves the source alone
      rw [if_neg hi, List.nil_append] at hsingle ⊢
      rw [run_cons]
      exact ih (h.of_frame (frame_step fs w st) hi) hsingle

end Workspace

lemma Scanner.config_scan (s : Scanner) (c : Cursor) : (s.scan c).scanner.config = s.config := by
  cases hread : Lexeme.read? (c.skip .whitespace).rest with
  | none => rw [scan_of_none hread]
  | some l =>
    rw [scan_of_some hread]
    rfl

namespace Source

def configs (s : Source) : List Config := s.scanners.map Scanner.config

lemma configs_act (s : Source) (a : Action) : s.configs <+: (s.act a).source.configs := by
  cases a with
  | attach config =>
    rw [configs, configs, act, List.map_append]
    exact List.prefix_append _ _
  | scan j =>
    cases hreader : s.scanners[j]? with
    | none =>
      have hsame : (s.act (.scan j)).source.configs = s.configs := by
        rw [act_scan_of_none hreader]
      exact ⟨[], (List.append_nil _).trans hsame.symm⟩
    | some reader =>
      have hconfig : s.configs[j]? = some (reader.scan s.cursor).scanner.config := by
        rw [configs, List.getElem?_map, hreader, Option.map_some, Scanner.config_scan]
      have hsame : (s.act (.scan j)).source.configs = s.configs := by
        rw [act_scan hreader, configs, update, List.map_set]
        exact set_of_getElem? hconfig
      exact ⟨[], (List.append_nil _).trans hsame.symm⟩
  | _ => exact List.prefix_refl _

lemma configs_run (s : Source) (actions : List Action) :
    s.configs <+: (s.run actions).2.1.configs := by
  induction actions generalizing s with
  | nil => exact List.prefix_refl _
  | cons a actions ih => exact (s.configs_act a).trans (ih (s.act a).source)

end Source

namespace Workspace

variable {w : Workspace} {i : Nat} {s : Source}

lemma configs_kept (h : w.sources[i]? = some s) (fs : FileSystem) (steps : List Step) :
    ∃ s', (w.run fs steps).2.sources[i]? = some s' ∧ s.configs <+: s'.configs := by
  induction steps generalizing w s with
  | nil => exact ⟨s, h, List.prefix_refl _⟩
  | cons st steps ih =>
    obtain ⟨s', hs', hkept⟩ := ih (sources_step h fs st)
    exact ⟨s', hs', (s.configs_run (w.actions i st)).trans hkept⟩

lemma workspace_run_append (fs : FileSystem) (w : Workspace) (before after : List Step) :
    (w.run fs (before ++ after)).2 = ((w.run fs before).2.run fs after).2 := by
  induction before generalizing w with
  | nil => rfl
  | cons st before ih => exact ih (w.step fs st).2

lemma step_mem_of_mem_share {fs : FileSystem} {steps : List Step} {m : Moment}
    (hm : m ∈ w.share fs i steps) : m.step ∈ steps := by
  have hmoment : m ∈ w.moments fs steps := (List.mem_filter.mp hm).1
  clear hm
  induction steps generalizing w with
  | nil => exact absurd hmoment List.not_mem_nil
  | cons st steps ih =>
    rcases List.mem_cons.mp hmoment with rfl | hlater
    · exact List.mem_cons_self
    · exact List.mem_cons_of_mem _ (ih hlater)

/-- What a run does to one source and the readers on it does not depend on the rest of the run: the
steps that touch it, run by themselves on the configurations that they found, give the same replies
and leave it in the same state after each of them. No change of the active configuration reaches a
source, and no reader ever changes its configuration. -/
theorem run_own (fs : FileSystem) (i : Nat) (active other : Config) (steps : List Step)
    (hsingle : ∀ m ∈ share fs i { active } steps, m.step.Single) :
    let whole : Workspace := { active }
    let apart : Workspace := { active := other }
    let own := whole.own fs i steps
    (apart.run fs own).1 = (whole.share fs i steps).map (Moment.reply fs) ∧
      List.Forall₂ (fun m m' => Mirrors i (m.after fs) (m'.after fs)) (whole.share fs i steps)
        (apart.moments fs own) ∧
      Mirrors i (whole.run fs steps).2 (apart.run fs own).2 ∧
      (∀ m ∈ whole.moments fs steps, m.step.Configures → (m.after fs).sources = m.before.sources) ∧
      ∀ before after s, steps = before ++ after → (whole.run fs before).2.sources[i]? = some s →
        ∃ s', (whole.run fs steps).2.sources[i]? = some s' ∧ s.configs <+: s'.configs := by
  intro whole apart own
  have hstart : Mirrors i whole apart := ⟨rfl, fun id o ho => absurd ho (by simp [whole, object?])⟩
  obtain ⟨hreplies, hmoments, hlast⟩ := hstart.run hsingle
  refine ⟨hreplies, hmoments, hlast, fun m _ hm => sources_step_of_configures hm, ?_⟩
  intro before after s hsteps hs
  rw [hsteps, workspace_run_append]
  exact configs_kept hs fs after

/-- The scanner keeps the configuration that was active when it was made, whatever happens to the
other cursor and to the active configuration. -/
theorem run_own_of_second_cursor :
    let fs : FileSystem := fun _ => .error .noSuchFile
    let whole : Workspace := {}
    let steps : List Step :=
      [.newCursor "a" "x y" none, .setConfig (some [("max_lexeme_length", .int 1)]),
        .newCursor "b" "ab (" none, .newScanner "s" "b" none, .resetConfig, .advance "a" 1,
        .scan "s" 2]
    let own : List Step :=
      [.newCursor "b" "ab (" none,
        .newScanner "s" "b" (some [("max_lexeme_length", .int 1),
          ("separators_enabled", .bool false), ("encoding", .text "utf-8")]),
        .scan "s" 2]
    whole.own fs 1 steps = own ∧
      (whole.run fs own).1 = (whole.share fs 1 steps).map (Moment.reply fs) ∧
      Mirrors 1 (whole.run fs steps).2 (whole.run fs own).2 := by
  intro fs whole steps own
  have hown : whole.own fs 1 steps = own := rfl
  have hsingle : ∀ st ∈ steps, st.Single := by simp [steps, Step.Single]
  have hrun := run_own fs 1 default default steps fun m hm => hsingle _ (step_mem_of_mem_share hm)
  exact ⟨hown, hown ▸ hrun.1, hown ▸ hrun.2.2.1⟩

end Workspace

end Munch
