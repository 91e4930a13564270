import Munch.Proofs.Sharing

/-!
# Shared cursors in a run

In a run, scanners and sessions are made for one cursor at any time, and single scans, drains and
iterators take tokens in any order. `Workspace.history` collects what the replies of the run tell of
one cursor, and `shared_cursor_tokens` says that every token in it is the one that was due and that
no reader ever stops answering.
-/

namespace Munch

def Reply.tokens (r : Reply) : List Token :=
  match r.result with
  | .ok (.tokens ts) => ts
  | .ok (.token t) => [t]
  | _ => []

/-- A step that neither reads characters off a cursor nor closes anything. -/
def Step.Pulls : Step → Prop
  | .advance _ _ | .close _ | .closeBatch _ _ => False
  | _ => True

namespace Workspace

def asked? (w : Workspace) : Step → Option (Nat × Nat)
  | .scan id _ | .drain id => w.reader? id
  | .iterNext id _ =>
    match w.object? id with
    | some (.iterator k j _) => some (k, j)
    | _ => none
  | _ => none

/-- The tokens that a step gives. What an iterator gives does not depend on what else is looked
at. -/
def given (fs : FileSystem) (w : Workspace) : Step → List Token
  | .iterNext id _ => (w.step fs (.iterNext id none)).1.tokens
  | st => (w.step fs st).1.tokens

def makings (w : Workspace) (i : Nat) (cursor : String) (settings : Settings) : List Event :=
  match w.config settings, w.sources[i]? with
  | .ok config, some s =>
    if w.cursor? cursor = some i then [.made config s.cursor.position] else []
  | _, _ => []

/-- What a step tells of the source with number `i`: the reader made for it, or the tokens given. -/
def events (fs : FileSystem) (w : Workspace) (i : Nat) (st : Step) : List Event :=
  match st with
  | .newScanner _ cursor settings | .sessionOver _ cursor settings =>
    w.makings i cursor settings
  | st =>
    match w.asked? st with
    | some (k, j) => if k = i then (w.given fs st).map (.took j) else []
    | none => []

/-- What all steps of a run tell of the source with number `i`, in order. -/
def history (fs : FileSystem) (i : Nat) (w : Workspace) : List Step → List Event
  | [] => []
  | st :: rest => w.events fs i st ++ (w.step fs st).2.history fs i rest

/-- Whatever the reader with this number is asked for, it gives: as many tokens as are asked for,
all of them through the end of input, or one for each step of an iterator. -/
structure Answers (fs : FileSystem) (w : Workspace) (i number : Nat) : Prop where
  scan : ∀ id n, w.reader? id = some (i, number) → (w.given fs (.scan id n)).length = n
  drain : ∀ id, w.reader? id = some (i, number) →
    ∃ ts last, w.given fs (.drain id) = ts ++ [last] ∧ last.kind = .eof
  iterNext : ∀ id shown, w.object? id = some (.iterator i number false) →
    ∃ t, w.given fs (.iterNext id shown) = [t]

def allActions (fs : FileSystem) (i : Nat) (w : Workspace) : List Step → List Source.Action
  | [] => []
  | st :: rest => w.actions i st ++ (w.step fs st).2.allActions fs i rest

end Workspace

namespace Source

lemma events_append (s : Source) (as bs : List Action) :
    s.events (as ++ bs) = s.events as ++ (s.run as).2.1.events bs := by
  induction as generalizing s with
  | nil => rfl
  | cons a as ih =>
    rw [List.cons_append, events, events, ih, List.append_assoc]
    rfl

lemma events_scans (s : Source) (j n : Nat) :
    s.events (List.replicate n (.scan j)) =
      (tokens (s.run (List.replicate n (.scan j))).1).map (.took j) := by
  induction n generalizing s with
  | zero => rfl
  | succ n ih =>
    rw [List.replicate_succ, events, ih]
    cases hreader : s.scanners[j]? with
    | none => simp [event?, run, act, hreader, tokens]
    | some scanner => simp [event?, run, act, hreader, tokens]

lemma tokens_map_token (ts : List Token) : tokens (ts.map .token) = ts := by
  induction ts with
  | nil => rfl
  | cons t ts ih =>
    rw [tokens, List.map_cons, List.filterMap_cons]
    exact congrArg (t :: ·) ih

lemma events_drain (s : Source) (j : Nat) :
    s.events (List.replicate (s.drain j).1.length (.scan j)) = (s.drain j).1.map (.took j) := by
  rw [events_scans, (s.drain_eq_run j).1, tokens_map_token]

end Source

namespace Workspace

variable {w : Workspace} {i : Nat} {s : Source}

lemma tokens_onReader (h : w.sources[i]? = some s) {id : String} {j : Nat}
    (hreader : w.reader? id = some (i, j))
    (f : Nat → Source → List Token × Source × List Record) :
    (w.onReader id f .tokens).1.tokens = (f j s).1 := by
  unfold onReader
  simp only [hreader, bind, Option.bind]
  cases hon : w.onSource i (f j) with
  | none => exact absurd rfl (ne_of_onSource_eq_none h hon)
  | some used =>
    obtain ⟨ts, w', log⟩ := used
    exact fst_onSource h hon

lemma pulls_of_mem_ite {p : Prop} [Decidable p] {as : List Source.Action} {a : Source.Action}
    (has : ∀ a ∈ as, a.Pulls) (ha : a ∈ if p then as else []) : a.Pulls := by
  rw [List.mem_ite_nil_right] at ha
  exact has a ha.2

lemma pulls_attachings {cursor : String} {settings : Settings} :
    ∀ a ∈ w.attachings i cursor settings, a.Pulls := by
  unfold attachings
  intro a ha
  split at ha
  · rename_i config _
    apply pulls_of_mem_ite _ ha
    intro b hb
    rw [List.mem_singleton.mp hb]
    trivial
  · exact absurd ha List.not_mem_nil

lemma pulls_actions {st : Step} (hst : st.Pulls) : ∀ a ∈ w.actions i st, a.Pulls := by
  -- a scan, a drain and an iterator all scan, some number of times
  have hscans : ∀ n j, ∀ a ∈ List.replicate n (Source.Action.scan j), a.Pulls := by
    intro n j a ha
    rw [(List.mem_replicate.mp ha).2]
    trivial
  intro a ha
  cases st with
  | newScanner id cursor settings => exact pulls_attachings a ha
  | sessionOver id cursor settings => exact pulls_attachings a ha
  | scan id times =>
    simp only [actions] at ha
    split at ha
    · exact pulls_of_mem_ite (hscans times _) ha
    · exact absurd ha List.not_mem_nil
  | drain id =>
    simp only [actions] at ha
    split at ha
    · exact pulls_of_mem_ite (hscans _ _) ha
    · exact absurd ha List.not_mem_nil
  | iterNext id shown =>
    simp only [actions] at ha
    split at ha
    · exact pulls_of_mem_ite (hscans 1 _) ha
    · exact absurd ha List.not_mem_nil
  | advance id times => exact hst.elim
  | close id => exact hst.elim
  | closeBatch id ids => exact hst.elim
  | _ => exact absurd ha List.not_mem_nil

lemma makings_eq (h : w.sources[i]? = some s) (cursor : String) (settings : Settings) :
    w.makings i cursor settings = s.events (w.attachings i cursor settings) := by
  simp only [makings, attachings, h]
  cases w.config settings with
  | error e => rfl
  | ok config =>
    by_cases hcursor : w.cursor? cursor = some i
    · simp only [if_pos hcursor]
      rfl
    · simp only [if_neg hcursor]
      rfl

lemma events_iterNext (h : w.sources[i]? = some s) (fs : FileSystem) (id : String)
    (shown : Option String) :
    w.events fs i (.iterNext id shown) = s.events (w.actions i (.iterNext id shown)) := by
  simp only [events, asked?, given, step, iterNext, actions]
  cases w.object? id with
  | none => rfl
  | some object =>
    cases object with
    | iterator k j finished =>
      by_cases hk : k = i
      · subst hk
        cases finished with
        | true =>
          simp only [if_true]
          rfl
        | false =>
          simp only [if_true]
          cases hon : w.onSource k fun s =>
              ((s.act (.scan j)).yield, (s.act (.scan j)).source, (s.act (.scan j)).log) with
          | none => exact absurd rfl (ne_of_onSource_eq_none h hon)
          | some pulled =>
            obtain ⟨yield, w', log⟩ := pulled
            have hyield : yield = (s.act (.scan j)).yield := fst_onSource h hon
            simp only [Source.events, Source.event?, ← hyield]
            cases yield <;> rfl
      · simp only [if_neg hk]
        cases finished with
        | true => rfl
        | false =>
          simp only [if_neg hk]
          rfl
    | _ => rfl

theorem events_eq (h : w.sources[i]? = some s) (fs : FileSystem) {st : Step} (hst : st.Pulls) :
    w.events fs i st = s.events (w.actions i st) := by
  cases st with
  | newScanner id cursor settings => exact makings_eq h cursor settings
  | sessionOver id cursor settings => exact makings_eq h cursor settings
  | scan id times =>
    simp only [events, asked?, given, step, actions]
    cases hreader : w.reader? id with
    | none => rfl
    | some reader =>
      obtain ⟨k, j⟩ := reader
      by_cases hk : k = i
      · subst hk
        simp only [if_true, tokens_onReader h hreader, Source.events_scans]
      · simp only [if_neg hk]
        rfl
  | drain id =>
    simp only [events, asked?, given, step, actions, h]
    cases hreader : w.reader? id with
    | none => rfl
    | some reader =>
      obtain ⟨k, j⟩ := reader
      by_cases hk : k = i
      · subst hk
        simp only [if_true, tokens_onReader h hreader, Source.events_drain]
      · simp only [if_neg hk]
        rfl
  | iterNext id shown => exact events_iterNext h fs id shown
  | advance id times => exact hst.elim
  | close id => exact hst.elim
  | closeBatch id ids => exact hst.elim
  | _ => rfl

lemma history_eq (h : w.sources[i]? = some s) (fs : FileSystem) {steps : List Step}
    (hsteps : ∀ st ∈ steps, st.Pulls) :
    w.history fs i steps = s.events (w.allActions fs i steps) ∧
      ∀ a ∈ w.allActions fs i steps, a.Pulls := by
  induction steps generalizing w s with
  | nil => exact ⟨rfl, by simp [allActions]⟩
  | cons st steps ih =>
    rw [List.forall_mem_cons] at hsteps
    obtain ⟨hhistory, hpulls⟩ := ih (sources_step h fs st) hsteps.2
    constructor
    · rw [history, allActions, events_eq h fs hsteps.1, hhistory, Source.events_append]
    · intro a ha
      rw [allActions, List.mem_append] at ha
      rcases ha with ha | ha
      · exact pulls_actions hsteps.1 a ha
      · exact hpulls a ha

lemma sources_run (h : w.sources[i]? = some s) (fs : FileSystem) (steps : List Step) :
    (w.run fs steps).2.sources[i]? = some (s.run (w.allActions fs i steps)).2.1 := by
  induction steps generalizing w s with
  | nil => exact h
  | cons st steps ih =>
    rw [allActions, Source.run_append_source]
    exact ih (sources_step h fs st)

lemma answers (h : w.sources[i]? = some s) (fs : FileSystem) {j : Nat} {reader : Scanner}
    (hreader : s.scanners[j]? = some reader) : w.Answers fs i j := by
  constructor
  · intro id n hid
    have hgiven : w.given fs (.scan id n) =
        Source.tokens (s.run (List.replicate n (.scan j))).1 :=
      tokens_onReader h hid fun j s =>
        (Source.tokens (s.run (List.replicate n (.scan j))).1,
          (s.run (List.replicate n (.scan j))).2)
    rw [hgiven, Source.run_scans hreader]
    simp only [Source.tokens_map_token, Scanner.length_scans]
  · intro id hid
    have hgiven : w.given fs (.drain id) = (s.drain j).1 :=
      tokens_onReader h hid fun j s => s.drain j
    obtain ⟨pieces, tail, hcut⟩ := exists_cut s.cursor.rest
    rw [hgiven, Source.drain, hreader]
    simp only [Scanner.drain_of_cut hcut]
    exact ⟨_, _, rfl, rfl⟩
  · intro id shown hid
    have htold : (w.given fs (.iterNext id shown)).map (Event.took j) = s.events [.scan j] := by
      have hevents := events_iterNext h fs id shown
      simpa only [events, asked?, actions, hid, if_true] using hevents
    have hscan : s.events [.scan j] = [.took j (reader.scan s.cursor).token] := by
      simp [Source.events, Source.event?, Source.act, hreader]
    rw [hscan, List.map_eq_singleton_iff] at htold
    obtain ⟨t, hgiven, -⟩ := htold
    exact ⟨t, hgiven⟩

/-- Whatever readers are made for a cursor, and whenever, and in whatever order they are asked:
each token that one of them gives is the one that was due, and all of them go on to answer. -/
theorem shared_cursor_tokens (fs : FileSystem) (w : Workspace) (id text : String)
    (source : Option String) (steps : List Step) (hsteps : ∀ st ∈ steps, st.Pulls) :
    let shared := (w.step fs (.newCursor id text source)).2
    let told := shared.history fs w.sources.length steps
    (∀ before number t after, told = before ++ .took number t :: after →
      ∃ config place, Due text source before number config place t) ∧
    ∀ number < (readers told).length,
      (shared.run fs steps).2.Answers fs w.sources.length number := by
  intro shared told
  have hsource : shared.sources[w.sources.length]? = some { cursor := .ofText text source } :=
    List.getElem?_concat_length
  obtain ⟨htold, hpulls⟩ := history_eq hsource fs hsteps
  have hstart := Source.shared_ofText text source
  constructor
  · intro before number t after hsplit
    exact hstart.due_of_events _ hpulls (htold.symm.trans hsplit)
  · intro number hnumber
    have hend := hstart.run _ hpulls
    have hreaders := hend.readers_eq
    rw [List.nil_append, ← htold] at hreaders
    have hreader : number < _ := hnumber.trans_eq (congrArg List.length hreaders)
    rw [List.length_map] at hreader
    exact answers (sources_run hsource fs steps) fs (List.getElem?_eq_getElem hreader)

theorem shared_cursor_tokens_of_two_readers :
    (∃ config place,
      Due "a bc" none
        [.made default ⟨1, 0⟩, .made { limit := 1 } ⟨1, 0⟩,
          .took 0 ⟨.identifier, "a", ⟨⟨1, 0⟩, none⟩⟩]
        1 config place ⟨.identifier, "b", ⟨⟨1, 2⟩, none⟩⟩) ∧
    ∃ config place,
      Due "a bc" none
        [.made default ⟨1, 0⟩, .made { limit := 1 } ⟨1, 0⟩,
          .took 0 ⟨.identifier, "a", ⟨⟨1, 0⟩, none⟩⟩, .took 1 ⟨.identifier, "b", ⟨⟨1, 2⟩, none⟩⟩]
        0 config place ⟨.eof, "", ⟨⟨1, 4⟩, none⟩⟩ := by
  have hrun := shared_cursor_tokens (fun _ => .error .noSuchFile) {} "cursor" "a bc" none
    [.newScanner "scanner" "cursor" none,
      .sessionOver "session" "cursor" (some [("max_lexeme_length", .int 1)]),
      .scan "scanner" 1, .iterate "iterator" "session", .iterNext "iterator" none,
      .scan "scanner" 1]
    (by simp [Step.Pulls])
  exact ⟨hrun.1 _ 1 _ [.took 0 ⟨.eof, "", ⟨⟨1, 4⟩, none⟩⟩] rfl, hrun.1 _ 0 _ [] rfl⟩

end Workspace

end Munch
