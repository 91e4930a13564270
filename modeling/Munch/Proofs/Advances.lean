import Mathlib.Data.List.ReduceOption
import Munch.Proofs.Cut
import Munch.Source

/-!
# Scans by single advances

A cursor takes its characters one at a time. `Scanner.scanByAdvances` is a scan that is made of single
advances and keeps what they return. It gives what `Scanner.scan` gives at one go, and the advances
return the characters that the scan moves over, in order (`Scanner.scanByAdvances_eq`).
-/

namespace Munch

lemma reduceOption_map_some {α : Type} (l : List α) : (l.map some).reduceOption = l := by
  induction l with
  | nil => rfl
  | cons a l ih => rw [List.map_cons, List.reduceOption_cons_of_some, ih]

lemma take_length_takeWhile (p : Char → Bool) (text : List Char) :
    text.take (text.takeWhile p).length = text.takeWhile p :=
  (List.prefix_iff_eq_take.mp (List.takeWhile_prefix p)).symm

namespace Cursor

variable {c : Cursor} {x : Char} {rest : List Char}

lemma consume_zero (c : Cursor) : c.consume 0 = c := by simp [consume]

lemma lookahead_of_cons (h : c.rest = x :: rest) : c.lookahead = some x := by
  rw [lookahead, h, List.head?_cons]

lemma lookahead_of_nil (h : c.rest = []) : c.lookahead = none := by
  rw [lookahead, h, List.head?_nil]

lemma rest_advance_of_cons (h : c.rest = x :: rest) : c.advance.2.rest = rest := by
  rw [advance, rest_consume, h, List.drop_succ_cons, List.drop_zero]

lemma length_rest_advance_lt (h : c.lookahead = some x) :
    c.advance.2.rest.length < c.rest.length := by
  cases hrest : c.rest with
  | nil =>
    rw [lookahead_of_nil hrest] at h
    exact absurd h (by simp)
  | cons y rest =>
    rw [rest_advance_of_cons hrest, List.length_cons]
    omega

/-- Advances as long as the next character is accepted, and keeps what the advances return. -/
def readWhile (accept : Char → Bool) (c : Cursor) : List (Option Char) × Cursor :=
  match _h : c.lookahead with
  | none => ([], c)
  | some x =>
    if accept x then
      let others := c.advance.2.readWhile accept
      (c.advance.1 :: others.1, others.2)
    else ([], c)
termination_by c.rest.length
decreasing_by exact length_rest_advance_lt _h

lemma readWhile_of_nil (h : c.rest = []) (accept : Char → Bool) :
    c.readWhile accept = ([], c) := by
  rw [readWhile]
  split
  case h_1 => rfl
  case h_2 x hx =>
    rw [lookahead_of_nil h] at hx
    exact absurd hx (by simp)

lemma readWhile_of_cons (h : c.rest = x :: rest) (accept : Char → Bool) :
    c.readWhile accept =
      if accept x then
        (some x :: (c.advance.2.readWhile accept).1, (c.advance.2.readWhile accept).2)
      else ([], c) := by
  have hfirst : c.advance.1 = some x := lookahead_of_cons h
  rw [readWhile]
  split
  case h_1 hnone =>
    rw [lookahead_of_cons h] at hnone
    exact absurd hnone (by simp)
  case h_2 y hy =>
    rw [lookahead_of_cons h, Option.some_inj] at hy
    rw [← hy, hfirst]

theorem readWhile_eq (accept : Char → Bool) (c : Cursor) :
    c.readWhile accept =
      ((c.rest.takeWhile accept).map some, c.consume (c.rest.takeWhile accept).length) := by
  induction hrest : c.rest generalizing c with
  | nil => rw [readWhile_of_nil hrest, List.takeWhile_nil, List.length_nil, List.map_nil, consume_zero]
  | cons x rest ih =>
    have hothers := ih c.advance.2 (rest_advance_of_cons hrest)
    rw [readWhile_of_cons hrest]
    by_cases hx : accept x = true
    · have hmove : c.advance.2.consume (rest.takeWhile accept).length =
          c.consume (1 + (rest.takeWhile accept).length) := consume_consume c 1 _
      rw [if_pos hx, List.takeWhile_cons_of_pos hx, List.length_cons, List.map_cons, hothers, hmove,
        Nat.add_comm]
    · rw [if_neg hx, List.takeWhile_cons_of_neg hx, List.length_nil, List.map_nil, consume_zero]

/-- The lexeme at the cursor by single advances, with what they return and the cursor after them.
The first character decides how far the lexeme runs. -/
def lexemeByAdvances (c : Cursor) : Option (Lexeme × List (Option Char) × Cursor) :=
  match c.lookahead with
  | none => none
  | some x =>
    if CharClass.identifierStart.holds x then
      let run := c.readWhile CharClass.identifierChar.holds
      some (.word run.1.reduceOption, run)
    else if CharClass.digit.holds x then
      let run := c.readWhile CharClass.digit.holds
      some (.number run.1.reduceOption, run)
    else some (.symbol x, [c.advance.1], c.advance.2)

theorem lexemeByAdvances_eq (c : Cursor) :
    c.lexemeByAdvances = (Lexeme.read? c.rest).map fun l =>
      (l, l.chars.map some, c.consume l.chars.length) := by
  unfold lexemeByAdvances
  cases hrest : c.rest with
  | nil =>
    rw [lookahead_of_nil hrest]
    rfl
  | cons x rest =>
    have hrun : ∀ p : Char → Bool, p x = true →
        c.readWhile p = ((x :: rest.takeWhile p).map some,
          c.consume (x :: rest.takeWhile p).length) := by
      intro p hp
      rw [readWhile_eq, hrest, List.takeWhile_cons_of_pos hp]
    rw [lookahead_of_cons hrest]
    simp only [Lexeme.read?]
    by_cases hstart : CharClass.identifierStart.holds x = true
    · have hword := hrun _ (CharClass.identifierChar_of_identifierStart hstart)
      rw [if_pos hstart, if_pos hstart, hword, reduceOption_map_some]
      rfl
    · rw [if_neg hstart, if_neg hstart]
      by_cases hdigit : CharClass.digit.holds x = true
      · have hnumber := hrun _ hdigit
        rw [if_pos hdigit, if_pos hdigit, hnumber, reduceOption_map_some]
        rfl
      · rw [if_neg hdigit, if_neg hdigit, advance, lookahead_of_cons hrest]
        rfl

end Cursor

namespace Scanner

/-- A scan by single advances, and what they return. -/
def scanByAdvances (s : Scanner) (c : Cursor) : Scan × List (Option Char) :=
  let blanks := c.readWhile CharClass.whitespace.holds
  match blanks.2.lexemeByAdvances with
  | none => (⟨s.eof blanks.2, s, blanks.2, []⟩, blanks.1)
  | some (l, run, last) =>
    let location := blanks.2.position.of c.source
    let found := l.diagnostic? s.config location
    (⟨l.token s.config location, s.note found, last, found.toList.map .ofDiagnostic⟩,
      blanks.1 ++ run)

/-- A scan is made of advances, which return the characters that the cursor moves over. -/
theorem scanByAdvances_eq (s : Scanner) (c : Cursor) :
    ∃ n, (s.scan c).cursor = c.consume n ∧
      s.scanByAdvances c = (s.scan c, (c.rest.take n).map some) := by
  have hblanks : c.readWhile CharClass.whitespace.holds =
      ((c.rest.takeWhile CharClass.whitespace.holds).map some, c.skip .whitespace) :=
    Cursor.readWhile_eq _ c
  have hfront := c.rest_skip .whitespace
  unfold scanByAdvances
  rw [hblanks]
  simp only [Cursor.lexemeByAdvances_eq]
  cases hread : Lexeme.read? (c.skip .whitespace).rest with
  | none =>
    refine ⟨(c.rest.takeWhile CharClass.whitespace.holds).length, ?_, ?_⟩
    · rw [scan_of_none hread]
      rfl
    · rw [scan_of_none hread, take_length_takeWhile]
      rfl
  | some l =>
    refine ⟨(c.rest.takeWhile CharClass.whitespace.holds).length + l.chars.length, ?_, ?_⟩
    · rw [scan_of_some hread, ← Cursor.consume_consume]
      rfl
    · have hchars : (c.rest.dropWhile CharClass.whitespace.holds).take l.chars.length =
          l.chars := by
        rw [← hfront, ← Lexeme.chars_append_drop_of_read? hread]
        simp
      rw [scan_of_some hread, List.take_add, take_length_takeWhile, drop_length_takeWhile, hchars,
        List.map_append]
      rfl

end Scanner

end Munch
