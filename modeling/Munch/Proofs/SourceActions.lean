import Munch.Proofs.Drain
import Munch.Workspace

/-!
# What the steps of a run do to a source

A step of a run reaches a source only through actions on it. `Workspace.actions` lists them, and
`Workspace.sources_step` says that they are all that happens to the source, so what every action
keeps is kept by every run.
-/

namespace Munch

namespace Source

lemma run_append_source (s : Source) (as bs : List Action) :
    (s.run (as ++ bs)).2.1 = ((s.run as).2.1.run bs).2.1 := by
  induction as generalizing s with
  | nil => rfl
  | cons a as ih => exact ih (s.act a).source

lemma run_if (s : Source) (p : Prop) [Decidable p] (as : List Action) :
    (s.run (if p then as else [])).2.1 = if p then (s.run as).2.1 else s := by
  by_cases hp : p
  · rw [if_pos hp, if_pos hp]
  · rw [if_neg hp, if_neg hp]
    rfl

lemma set_of_getElem? {α : Type} {l : List α} {j : Nat} {a : α} (h : l[j]? = some a) :
    l.set j a = l := by
  obtain ⟨hj, rfl⟩ := List.getElem?_eq_some_iff.mp h
  exact List.set_getElem_self hj

lemma getElem?_update {s : Source} {j : Nat} {scanner : Scanner} (h : s.scanners[j]? = some scanner)
    (scanner' : Scanner) (c : Cursor) : (s.update j scanner' c).scanners[j]? = some scanner' := by
  obtain ⟨hj, -⟩ := List.getElem?_eq_some_iff.mp h
  exact List.getElem?_set_self hj

lemma update_self {s : Source} {j : Nat} {scanner : Scanner} (h : s.scanners[j]? = some scanner)
    (c : Cursor) : s.update j scanner c = { s with cursor := c } := by
  rw [update, set_of_getElem? h]

lemma update_update (s : Source) (j : Nat) (a b : Scanner) (c d : Cursor) :
    (s.update j a c).update j b d = s.update j b d := by
  simp [update]

theorem run_scans {s : Source} {j : Nat} {scanner : Scanner} (h : s.scanners[j]? = some scanner)
    (n : Nat) :
    s.run (List.replicate n (.scan j)) =
      let scans := scanner.scans n s.cursor
      (scans.tokens.map .token, s.update j scans.scanner scans.cursor, scans.log) := by
  induction n generalizing s scanner with
  | zero =>
    simp only [List.replicate_zero, run_nil, Scanner.scans, update_self h s.cursor,
      List.map_nil]
  | succ n ih =>
    have hmore := ih (getElem?_update h (scanner.scan s.cursor).scanner
      (scanner.scan s.cursor).cursor)
    simp only [List.replicate_succ, run, act_scan h, hmore, Scanner.scans, update_update,
      List.map_cons]
    rfl

lemma source_scan_of_no_token {s : Source} {j : Nat}
    (h : ¬ ∃ t, (s.act (.scan j)).yield = .token t) : (s.act (.scan j)).source = s := by
  cases hreader : s.scanners[j]? with
  | none => rw [act_scan_of_none hreader]
  | some scanner =>
    rw [act_scan hreader] at h
    exact absurd ⟨_, rfl⟩ h

/-- A drain is as many scans as it gives tokens. -/
theorem drain_eq_run (s : Source) (j : Nat) :
    (s.run (List.replicate (s.drain j).1.length (.scan j))).1 = (s.drain j).1.map .token ∧
      (s.run (List.replicate (s.drain j).1.length (.scan j))).2.1 = (s.drain j).2.1 := by
  cases h : s.scanners[j]? with
  | none => simp [drain, h]
  | some scanner =>
    have hdrain : s.drain j = ((scanner.drain s.cursor).tokens,
        s.update j (scanner.drain s.cursor).scanner (scanner.drain s.cursor).cursor,
        (scanner.drain s.cursor).log) := by
      simp only [drain, h]
    rw [hdrain, run_scans h, ← Scanner.drain_eq_scans]
    exact ⟨rfl, rfl⟩

end Source

namespace Workspace

/-- The closings of a source when the sessions of a batch are closed, the last one first. -/
def closings (i : Nat) : List (Nat × Nat) → List Source.Action
  | [] => []
  | (k, _) :: rest => closings i rest ++ if k = i then [.closeSession] else []

lemma eq_closeSession_of_mem_closings {i : Nat} {members : List (Nat × Nat)} {a : Source.Action}
    (h : a ∈ closings i members) : a = .closeSession := by
  induction members with
  | nil => exact absurd h List.not_mem_nil
  | cons member members ih =>
    rw [closings, List.mem_append, List.mem_ite_nil_right, List.mem_singleton] at h
    rcases h with h | h
    · exact ih h
    · exact h.2

/-- What is done to the source with number `i` when a reader is made for the cursor of this name. -/
def attachings (w : Workspace) (i : Nat) (cursor : String) (settings : Settings) :
    List Source.Action :=
  match w.config settings with
  | .ok config => if w.cursor? cursor = some i then [.attach config] else []
  | .error _ => []

/-- What a step does to the source with number `i`. -/
def actions (w : Workspace) (i : Nat) : Step → List Source.Action
  | .newScanner _ cursor settings | .sessionOver _ cursor settings =>
    w.attachings i cursor settings
  | .advance id times => if w.cursor? id = some i then List.replicate times .advance else []
  | .scan id times =>
    match w.reader? id with
    | some (k, j) => if k = i then List.replicate times (.scan j) else []
    | none => []
  | .drain id =>
    match w.reader? id, w.sources[i]? with
    | some (k, j), some s =>
      if k = i then List.replicate (s.drain j).1.length (.scan j) else []
    | _, _ => []
  | .close id =>
    match w.object? id with
    | some (.cursor k) => if k = i then [.closeCursor] else []
    | some (.session k _) => if k = i then [.closeSession] else []
    | _ => []
  | .iterNext id _ =>
    match w.object? id with
    | some (.iterator k j false) => if k = i then [.scan j] else []
    | _ => []
  | .closeBatch id _ =>
    match w.object? id with
    | some (.batch members) => closings i members
    | _ => []
  | _ => []

variable {w : Workspace} {i : Nat} {s : Source}

lemma getElem?_addSource (h : w.sources[i]? = some s) (t : Source) :
    (w.addSource t).sources[i]? = some s := by
  obtain ⟨hi, -⟩ := List.getElem?_eq_some_iff.mp h
  rw [addSource, List.getElem?_append_left hi, h]

lemma getElem?_addBatch (h : w.sources[i]? = some s) (sessions : List Session)
    (ids : List String) : (w.addBatch sessions ids).1.sources[i]? = some s := by
  induction sessions generalizing w ids with
  | nil => exact h
  | cons session sessions ih =>
    cases ids with
    | nil => exact ih (w := w.addSource (.ofSession session)) (getElem?_addSource h _) _
    | cons id ids => exact ih (w := w.addSession id session) (getElem?_addSource h _) _

/-- Work on one source changes that source only. -/
lemma sources_onSource {α : Type} (h : w.sources[i]? = some s) {k : Nat}
    {f : Source → α × Source × List Record} {a : α} {w' : Workspace} {log : List Record}
    (hf : w.onSource k f = some (a, w', log)) :
    w'.sources[i]? = some (if k = i then (f s).2.1 else s) := by
  rw [onSource, Option.map_eq_some_iff] at hf
  obtain ⟨t, ht, heq⟩ := hf
  simp only [Prod.mk.injEq] at heq
  obtain ⟨-, rfl, -⟩ := heq
  by_cases hk : k = i
  · subst hk
    obtain rfl : t = s := Option.some.inj (ht.symm.trans h)
    obtain ⟨hi, -⟩ := List.getElem?_eq_some_iff.mp h
    rw [if_pos rfl]
    exact List.getElem?_set_self hi
  · rw [if_neg hk]
    exact (List.getElem?_set_ne hk).trans h

lemma fst_onSource {α : Type} (h : w.sources[i]? = some s) {f : Source → α × Source × List Record}
    {a : α} {w' : Workspace} {log : List Record} (hf : w.onSource i f = some (a, w', log)) :
    a = (f s).1 := by
  rw [onSource, h] at hf
  simp only [Option.map_some, Option.some_inj, Prod.mk.injEq] at hf
  exact hf.1.symm

lemma ne_of_onSource_eq_none {α : Type} {k : Nat} {f : Source → α × Source × List Record}
    (h : w.sources[i]? = some s) (hf : w.onSource k f = none) : k ≠ i := by
  rintro rfl
  rw [onSource, h] at hf
  simp at hf

lemma sources_attach (h : w.sources[i]? = some s) (id cursor : String) (settings : Settings)
    (object : Nat → Nat → Object) :
    (w.withConfig settings fun config => w.attach id cursor config object).2.sources[i]? =
      some (s.run (w.attachings i cursor settings)).2.1 := by
  unfold withConfig attachings
  cases w.config settings with
  | error e => exact h
  | ok config =>
    simp only [Source.run_if]
    unfold attach
    cases hcursor : w.cursor? cursor with
    | none => exact h
    | some k =>
      simp only [Option.some_inj]
      cases hsource : w.sources[k]? with
      | none =>
        have hk : k ≠ i := by
          rintro rfl
          exact absurd (hsource.symm.trans h) (by simp)
        simp only [bind, Option.bind, hsource, if_neg hk]
        exact h
      | some t =>
        cases hon : w.onSource k fun s => ((), (s.act (.attach config)).source, []) with
        | none => simp [onSource, hsource] at hon
        | some made =>
          obtain ⟨u, w', log⟩ := made
          simp only [bind, Option.bind, hsource, hon]
          exact sources_onSource h hon

lemma sources_onReader {α : Type} (h : w.sources[i]? = some s) (id : String)
    (f : Nat → Source → α × Source × List Record) (result : α → Result) :
    (w.onReader id f result).2.sources[i]? =
      some (match w.reader? id with
        | some (k, j) => if k = i then (f j s).2.1 else s
        | none => s) := by
  unfold onReader
  cases hreader : w.reader? id with
  | none => exact h
  | some reader =>
    obtain ⟨k, j⟩ := reader
    simp only [bind, Option.bind]
    cases hon : w.onSource k (f j) with
    | none =>
      have hk := ne_of_onSource_eq_none h hon
      rw [if_neg hk]
      exact h
    | some used =>
      obtain ⟨a, w', log⟩ := used
      exact sources_onSource h hon

lemma sources_closeWith (h : w.sources[i]? = some s) (k : Nat) (how : Source.Action)
    (id : String) :
    (step.closeWith w k how id).2.sources[i]? =
      some (s.run (if k = i then [how] else [])).2.1 := by
  rw [Source.run_if]
  unfold step.closeWith
  cases hon : w.onSource k fun s => ((), (s.act how).source, (s.act how).log) with
  | none =>
    have hk := ne_of_onSource_eq_none h hon
    rw [if_neg hk]
    exact h
  | some closed =>
    obtain ⟨u, w', log⟩ := closed
    exact sources_onSource h hon

lemma sources_closeSessions (h : w.sources[i]? = some s) (members : List (Nat × Nat)) :
    (w.closeSessions members).1.sources[i]? = some (s.run (closings i members)).2.1 := by
  induction members with
  | nil => exact h
  | cons member members ih =>
    obtain ⟨k, j⟩ := member
    rw [closings, Source.run_append_source, Source.run_if]
    simp only [closeSessions]
    cases hon : (w.closeSessions members).1.onSource k
        fun s => ((), (s.act .closeSession).source, (s.act .closeSession).log) with
    | none =>
      have hk := ne_of_onSource_eq_none ih hon
      rw [if_neg hk]
      exact ih
    | some closed =>
      obtain ⟨u, w', log⟩ := closed
      exact sources_onSource ih hon

lemma sources_finish (w : Workspace) (shown : Option String) (result : Result)
    (log : List Record) : (iterNext.finish shown w result log).2.sources = w.sources := by
  unfold iterNext.finish
  cases shown with
  | none => rfl
  | some other =>
    by_cases hview : (w.view? other).isSome
    · simp only [if_pos hview]
      rfl
    · simp only [if_neg hview]
      rfl

lemma sources_iterNext (h : w.sources[i]? = some s) (id : String) (shown : Option String) :
    (w.iterNext id shown).2.sources[i]? = some (s.run (w.actions i (.iterNext id shown))).2.1 := by
  simp only [iterNext, actions]
  cases w.object? id with
  | none => exact h
  | some object =>
    cases object with
    | iterator k j finished =>
      cases finished with
      | true =>
        simp only [sources_finish]
        exact h
      | false =>
        simp only [Source.run_if]
        cases hon : w.onSource k fun s =>
            ((s.act (.scan j)).yield, (s.act (.scan j)).source, (s.act (.scan j)).log) with
        | none =>
          have hk := ne_of_onSource_eq_none h hon
          rw [if_neg hk]
          exact h
        | some pulled =>
          obtain ⟨yield, w', log⟩ := pulled
          have hpulled := sources_onSource h hon
          -- without a token there is no such reader: the step fails and keeps what was there
          by_cases htoken : ∃ t, yield = .token t
          · obtain ⟨t, rfl⟩ := htoken
            simp only [sources_finish]
            exact hpulled
          · have hkept : (if k = i then (s.run [.scan j]).2.1 else s) = s := by
              by_cases hk : k = i
              · subst hk
                rw [fst_onSource h hon] at htoken
                rw [if_pos rfl]
                exact Source.source_scan_of_no_token htoken
              · rw [if_neg hk]
            rw [hkept]
            cases yield with
            | token t => exact absurd ⟨t, rfl⟩ htoken
            | _ => exact h
    | _ => exact h

lemma sources_withConfig (h : w.sources[i]? = some s) (settings : Settings)
    {k : Config → Reply × Workspace} (hk : ∀ config, (k config).2.sources[i]? = some s) :
    (w.withConfig settings k).2.sources[i]? = some s := by
  unfold withConfig
  cases w.config settings with
  | ok config => exact hk config
  | error e => exact h

/-- A step does its actions to a source, and nothing else. -/
theorem sources_step (h : w.sources[i]? = some s) (fs : FileSystem) (st : Step) :
    (w.step fs st).2.sources[i]? = some (s.run (w.actions i st)).2.1 := by
  cases st with
  | newCursor id text source => exact getElem?_addSource h _
  | openCursor id path encoding =>
    simp only [step]
    cases Cursor.openFile fs path encoding with
    | ok c => exact getElem?_addSource h _
    | error e => exact h
  | newScanner id cursor settings => exact sources_attach h id cursor settings .scanner
  | newSession id text source settings =>
    exact sources_withConfig h settings fun config => getElem?_addSource h _
  | sessionOver id cursor settings => exact sources_attach h id cursor settings .session
  | openSession id path settings =>
    apply sources_withConfig h settings
    intro config
    rcases Session.openFile fs config path with ⟨e | session, log⟩
    · exact h
    · exact getElem?_addSource h _
  | advance id times =>
    simp only [step, actions, Source.run_if]
    cases hcursor : w.cursor? id with
    | none => exact h
    | some k =>
      simp only [bind, Option.bind, Option.some_inj]
      cases hon : w.onSource k fun s =>
          (Source.reads (s.run (List.replicate times .advance)).1,
            (s.run (List.replicate times .advance)).2.1,
            (s.run (List.replicate times .advance)).2.2) with
      | none =>
        have hk := ne_of_onSource_eq_none h hon
        rw [if_neg hk]
        exact h
      | some read =>
        obtain ⟨chars, w', log⟩ := read
        exact sources_onSource h hon
  | scan id times =>
    simp only [step]
    rw [sources_onReader h]
    simp only [actions]
    cases w.reader? id with
    | none => rfl
    | some reader => simp only [Source.run_if]
  | drain id =>
    simp only [step]
    rw [sources_onReader h]
    simp only [actions, h]
    cases w.reader? id with
    | none => rfl
    | some reader => simp only [Source.run_if, Source.drain_eq_run]
  | close id =>
    simp only [step, actions]
    cases w.object? id with
    | none => exact h
    | some object =>
      cases object with
      | cursor k => exact sources_closeWith h k .closeCursor id
      | session k j => exact sources_closeWith h k .closeSession id
      | _ => exact h
  | inspect id =>
    simp only [step]
    cases w.view? id <;> exact h
  | iterate id reader =>
    simp only [step]
    cases w.reader? reader <;> exact h
  | iterNext id shown => exact sources_iterNext h id shown
  | openBatch id paths ids settings =>
    apply sources_withConfig h settings
    intro config
    rcases Session.openFiles fs config paths with ⟨e | sessions, log⟩
    · exact h
    · exact getElem?_addBatch h sessions ids
  | closeBatch id ids =>
    simp only [step, actions]
    cases w.object? id with
    | none => exact h
    | some object =>
      cases object with
      | batch members =>
        have hclosed := sources_closeSessions h members
        simp only
        cases (w.closeSessions members).1.renderSessions ids <;> exact hclosed
      | _ => exact h
  | tokenize text source settings => exact sources_withConfig h settings fun config => h
  | tokenizeFile path settings =>
    apply sources_withConfig h settings
    intro config
    rcases Munch.tokenizeFile fs config path with ⟨e | tokens, log⟩ <;> exact h
  | activeConfig => exact h
  | setConfig settings => exact sources_withConfig h settings fun config => h
  | resetConfig => exact h
  | enterScope id settings => exact sources_withConfig h settings fun config => h
  | leaveScope id =>
    simp only [step]
    cases w.object? id with
    | none => exact h
    | some object =>
      cases object with
      | scope before left => cases left <;> exact h
      | _ => exact h
  | threadConfig => exact h

end Workspace

end Munch
