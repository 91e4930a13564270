import Munch.Proofs.Advances
import Munch.Proofs.Lines

/-!
# Where a run leaves its cursor

Whatever is done to a cursor, it is moved over some characters or closed (`Source.act_moves`). So the
characters that its advances have returned are the front of the text, `Cursor.HasRead` ties every field
of the cursor to them, and nothing is taken back (`Source.run_cursor`).
-/

namespace Munch

namespace Cursor

/-- The characters `read` of the text were consumed, and the others are left unless the cursor was
closed. -/
structure HasRead (text read : List Char) (c : Cursor) : Prop where
  front : read <+: text
  offset_eq : c.offset = read.length
  position_eq : c.position = .endOf read
  text_eq : c.closed = false → text = read ++ c.rest
  rest_of_closed : c.closed = true → c.rest = []

/-- The cursor stands after the first `k` characters of the text. Until it is closed it knows the next
one, whichever it is, and is exhausted only where there is none. -/
structure StandsAfter (text : List Char) (k : Nat) (c : Cursor) : Prop where
  le_length : k ≤ text.length
  offset_eq : c.offset = k
  line_eq : c.position.line = 1 + (text.take k).count '\n'
  column_eq : c.position.column = (lastLine (text.take k)).length
  lookahead_eq : c.closed = false → c.lookahead = text[k]?
  exhausted_iff : c.closed = false → (c.exhausted = true ↔ k = text.length)
  reads : c.closed = false → ∀ x, text[k]? = some x → c.exhausted = false ∧ c.advance.1 = some x
  ended : c.closed = true → c.lookahead = none ∧ c.exhausted = true

/-- What a state of a cursor settles for a later one. -/
structure Precedes (c d : Cursor) : Prop where
  offset_le : c.offset ≤ d.offset
  closed : c.closed = true → d.closed = true
  exhausted : c.exhausted = true → d.exhausted = true
  still : c.exhausted = true →
    d.offset = c.offset ∧ d.position = c.position ∧ d.lookahead = c.lookahead

variable {text read : List Char} {c d e : Cursor}

lemma exhausted_iff : c.exhausted = true ↔ c.rest = [] := by
  rw [exhausted, List.isEmpty_iff]

lemma consume_of_nil (h : c.rest = []) (n : Nat) : c.consume n = c := by
  cases c
  simp_all [consume]

lemma hasRead_ofText (text : String) (source : Option String) :
    (Cursor.ofText text source).HasRead text.toList [] := by
  constructor
  · exact List.nil_prefix
  · rfl
  · rfl
  · intro _
    rfl
  · intro h
    exact absurd h (by simp [ofText])

lemma HasRead.consume (h : c.HasRead text read) (n : Nat) :
    (c.consume n).HasRead text (read ++ c.rest.take n) := by
  constructor
  · cases hclosed : c.closed with
    | true =>
      rw [h.rest_of_closed hclosed, List.take_nil, List.append_nil]
      exact h.front
    | false =>
      rw [h.text_eq hclosed, List.prefix_append_right_inj]
      exact List.take_prefix n c.rest
  · rw [offset_consume, h.offset_eq, List.length_append, List.length_take]
  · rw [position_consume, h.position_eq, Position.endOf_after]
  · intro hopen
    rw [closed_consume] at hopen
    rw [rest_consume, List.append_assoc, List.take_append_drop]
    exact h.text_eq hopen
  · intro hclosed
    rw [closed_consume] at hclosed
    rw [rest_consume, h.rest_of_closed hclosed, List.drop_nil]

lemma HasRead.close (h : c.HasRead text read) : c.close.HasRead text read := by
  constructor
  · exact h.front
  · exact h.offset_eq
  · exact h.position_eq
  · intro hopen
    exact absurd hopen (by simp [Cursor.close])
  · intro _
    rfl

lemma HasRead.take_eq (h : c.HasRead text read) : text.take read.length = read :=
  (List.prefix_iff_eq_take.mp h.front).symm

lemma HasRead.getElem?_eq (h : c.HasRead text read) (hopen : c.closed = false) :
    text[read.length]? = c.lookahead := by
  rw [h.text_eq hopen, List.getElem?_append_right (Nat.le_refl _), Nat.sub_self, lookahead,
    List.head?_eq_getElem?]

theorem HasRead.standsAfter (h : c.HasRead text read) : c.StandsAfter text read.length := by
  constructor
  · exact h.front.length_le
  · exact h.offset_eq
  · rw [h.position_eq, h.take_eq]
    rfl
  · rw [h.position_eq, h.take_eq]
    rfl
  · intro hopen
    exact (h.getElem?_eq hopen).symm
  · intro hopen
    have hlength := congrArg List.length (h.text_eq hopen)
    rw [List.length_append] at hlength
    rw [exhausted_iff, ← List.length_eq_zero_iff]
    omega
  · intro hopen x hx
    have hnext : c.lookahead = some x := (h.getElem?_eq hopen).symm.trans hx
    refine ⟨?_, hnext⟩
    rw [← Bool.not_eq_true, exhausted_iff]
    intro hrest
    rw [lookahead_of_nil hrest] at hnext
    exact absurd hnext (by simp)
  · intro hclosed
    have hrest := h.rest_of_closed hclosed
    exact ⟨lookahead_of_nil hrest, exhausted_iff.mpr hrest⟩

namespace Precedes

lemma refl (c : Cursor) : c.Precedes c := by
  constructor
  · exact Nat.le_refl _
  · exact id
  · exact id
  · intro _
    exact ⟨rfl, rfl, rfl⟩

lemma trans (h : c.Precedes d) (h' : d.Precedes e) : c.Precedes e := by
  constructor
  · exact h.offset_le.trans h'.offset_le
  · intro hclosed
    exact h'.closed (h.closed hclosed)
  · intro hexhausted
    exact h'.exhausted (h.exhausted hexhausted)
  · intro hexhausted
    obtain ⟨hoffset, hposition, hlookahead⟩ := h.still hexhausted
    obtain ⟨hoffset', hposition', hlookahead'⟩ := h'.still (h.exhausted hexhausted)
    exact ⟨hoffset'.trans hoffset, hposition'.trans hposition, hlookahead'.trans hlookahead⟩

lemma consume (c : Cursor) (n : Nat) : c.Precedes (c.consume n) := by
  constructor
  · rw [offset_consume]
    omega
  · exact id
  · intro hexhausted
    rw [consume_of_nil (exhausted_iff.mp hexhausted)]
    exact hexhausted
  · intro hexhausted
    rw [consume_of_nil (exhausted_iff.mp hexhausted)]
    exact ⟨rfl, rfl, rfl⟩

lemma close (c : Cursor) : c.Precedes c.close := by
  constructor
  · exact Nat.le_refl _
  · intro _
    rfl
  · intro _
    rfl
  · intro hexhausted
    exact ⟨rfl, rfl, (lookahead_of_nil (exhausted_iff.mp hexhausted)).symm⟩

end Precedes

end Cursor

namespace Source

/-- A source that was just made for a text. -/
def ofText (text : String) (source : Option String := none) : Source :=
  { cursor := .ofText text source }

/-- What the advances of an action return. A scan makes as many as it needs. -/
def advances (s : Source) : Action → List (Option Char)
  | .advance => [s.cursor.advance.1]
  | .scan number =>
    match s.scanners[number]? with
    | none => []
    | some reader => (reader.scanByAdvances s.cursor).2
  | _ => []

/-- What all advances of a run return, in order. -/
def allAdvances (s : Source) : List Action → List (Option Char)
  | [] => []
  | a :: rest => s.advances a ++ (s.act a).source.allAdvances rest

variable {text read : List Char} {s : Source}

lemma advances_scan {number : Nat} {reader : Scanner} (h : s.scanners[number]? = some reader) :
    s.advances (.scan number) = (reader.scanByAdvances s.cursor).2 := by
  simp only [advances, h]

lemma advances_scan_of_none {number : Nat} (h : s.scanners[number]? = none) :
    s.advances (.scan number) = [] := by
  simp only [advances, h]

/-- An action moves the cursor over the characters that its advances return, or closes it. -/
theorem act_moves (s : Source) (a : Action) :
    (∃ n, (s.act a).source.cursor = s.cursor.consume n ∧
      (s.advances a).reduceOption = s.cursor.rest.take n) ∨
    ((s.act a).source.cursor = s.cursor.close ∧ (s.advances a).reduceOption = []) := by
  have hstay : s.cursor = s.cursor.consume 0 := s.cursor.consume_zero.symm
  cases a with
  | advance =>
    refine Or.inl ⟨1, rfl, ?_⟩
    rw [advances, List.reduceOption_singleton, Cursor.advance, Cursor.lookahead]
    cases s.cursor.rest <;> rfl
  | attach config => exact Or.inl ⟨0, hstay, rfl⟩
  | scan number =>
    left
    cases hreader : s.scanners[number]? with
    | none =>
      rw [act_scan_of_none hreader, advances_scan_of_none hreader]
      exact ⟨0, hstay, rfl⟩
    | some reader =>
      obtain ⟨n, hcursor, hadvances⟩ := reader.scanByAdvances_eq s.cursor
      rw [act_scan hreader, advances_scan hreader, hadvances, reduceOption_map_some]
      exact ⟨n, hcursor, rfl⟩
  | closeCursor => exact Or.inr ⟨rfl, rfl⟩
  | closeSession =>
    simp only [act, Cursor.release]
    by_cases hclosed : s.cursor.closed = true
    · rw [if_pos hclosed]
      exact Or.inl ⟨0, hstay, rfl⟩
    · rw [if_neg hclosed]
      exact Or.inr ⟨rfl, rfl⟩

lemma hasRead_act (h : s.cursor.HasRead text read) (a : Action) :
    (s.act a).source.cursor.HasRead text (read ++ (s.advances a).reduceOption) := by
  rcases s.act_moves a with ⟨n, hcursor, hread⟩ | ⟨hcursor, hread⟩
  · rw [hcursor, hread]
    exact h.consume n
  · rw [hcursor, hread, List.append_nil]
    exact h.close

theorem hasRead_run (h : s.cursor.HasRead text read) (actions : List Action) :
    (s.run actions).2.1.cursor.HasRead text (read ++ (s.allAdvances actions).reduceOption) := by
  induction actions generalizing s read with
  | nil =>
    rw [allAdvances, List.reduceOption_nil, List.append_nil]
    exact h
  | cons a actions ih =>
    have hrest := ih (hasRead_act h a)
    rw [List.append_assoc, ← List.reduceOption_append] at hrest
    exact hrest

lemma precedes_act (s : Source) (a : Action) : s.cursor.Precedes (s.act a).source.cursor := by
  rcases s.act_moves a with ⟨n, hcursor, -⟩ | ⟨hcursor, -⟩
  · rw [hcursor]
    exact Cursor.Precedes.consume s.cursor n
  · rw [hcursor]
    exact Cursor.Precedes.close s.cursor

theorem precedes_run (s : Source) (actions : List Action) :
    s.cursor.Precedes (s.run actions).2.1.cursor := by
  induction actions generalizing s with
  | nil => exact Cursor.Precedes.refl s.cursor
  | cons a actions ih => exact (s.precedes_act a).trans (ih (s.act a).source)

lemma advances_of_exhausted (h : s.cursor.exhausted = true) (a : Action) :
    ∀ r ∈ s.advances a, r = none := by
  have hrest := Cursor.exhausted_iff.mp h
  cases a with
  | advance =>
    intro r hr
    rw [advances, List.mem_singleton, Cursor.advance, Cursor.lookahead_of_nil hrest] at hr
    exact hr
  | scan number =>
    cases hreader : s.scanners[number]? with
    | none =>
      rw [advances_scan_of_none hreader]
      simp
    | some reader =>
      obtain ⟨n, -, hadvances⟩ := reader.scanByAdvances_eq s.cursor
      rw [advances_scan hreader, hadvances, hrest]
      simp
  | _ => simp [advances]

lemma allAdvances_of_exhausted (h : s.cursor.exhausted = true) (actions : List Action) :
    ∀ r ∈ s.allAdvances actions, r = none := by
  induction actions generalizing s with
  | nil => simp [allAdvances]
  | cons a actions ih =>
    intro r hr
    rw [allAdvances, List.mem_append] at hr
    rcases hr with hr | hr
    · exact advances_of_exhausted h a r hr
    · exact ih ((s.precedes_act a).exhausted h) r hr

end Source

end Munch
