import Mathlib.Data.List.DropRight
import Munch.Position

/-!
# Lines and columns

Moving a position over a text counts its line feeds and the characters after the last of them
(`Position.start_after`). Read the other way, line and column lead back to the place in the text
(`getElem?_lines_append`).
-/

namespace Munch

/-- The lines of a text. Line feeds divide them and nothing else does. -/
def lines (text : List Char) : List (List Char) := text.splitOn '\n'

def lastLine (text : List Char) : List Char := text.rtakeWhile (· != '\n')

/-- The place right after a text, by counting: a line for each line feed, and a column for each
character after the last of them. -/
def Position.endOf (text : List Char) : Position :=
  ⟨1 + text.count '\n', (lastLine text).length⟩

lemma lastLine_newline (text : List Char) : lastLine (text ++ ['\n']) = [] := by
  rw [lastLine, List.rtakeWhile_concat_neg]
  decide

lemma lastLine_concat (text : List Char) {c : Char} (hc : c ≠ '\n') :
    lastLine (text ++ [c]) = lastLine text ++ [c] := by
  rw [lastLine, List.rtakeWhile_concat_pos, lastLine]
  simpa using hc

lemma count_concat (text : List Char) {c : Char} (hc : c ≠ '\n') :
    (text ++ [c]).count '\n' = text.count '\n' := by
  rw [List.count_append, List.count_singleton, if_neg (by simpa using hc), Nat.add_zero]

lemma length_lines (text : List Char) : (lines text).length = text.count '\n' + 1 := by
  induction text with
  | nil => rfl
  | cons c text ih =>
    rw [lines] at ih ⊢
    rw [List.splitOn_cons_eq_if_modifyHead]
    by_cases hc : c = '\n'
    · rw [hc, List.count_cons_self, if_pos (by decide), List.length_cons, ih]
    · rw [List.count_cons_of_ne hc, if_neg (by simpa using hc), List.length_modifyHead, ih]

lemma head?_lines (text : List Char) :
    (lines text)[0]? = some (text.takeWhile (· != '\n')) := by
  induction text with
  | nil => rfl
  | cons c text ih =>
    rw [lines] at ih ⊢
    rw [List.splitOn_cons_eq_if_modifyHead]
    by_cases hc : c = '\n'
    · rw [hc, if_pos (by decide), List.takeWhile_cons_of_neg (by decide)]
      rfl
    · rw [if_neg (by simpa using hc), List.getElem?_modifyHead_zero, ih,
        List.takeWhile_cons_of_pos (by simpa using hc)]
      rfl

/-- The line on which a text ends, in a longer text that begins with it. -/
theorem getElem?_lines_append (a b : List Char) :
    (lines (a ++ b))[a.count '\n']? = some (lastLine a ++ b.takeWhile (· != '\n')) := by
  induction a using List.reverseRecOn generalizing b with
  | nil => exact head?_lines b
  | append_singleton a c ih =>
    rw [List.append_assoc, List.singleton_append]
    by_cases hc : c = '\n'
    · subst hc
      have hlines : lines (a ++ '\n' :: b) = lines a ++ lines b :=
        List.splitOn_append_cons_self a b
      rw [hlines, List.getElem?_append_right (by rw [length_lines]; simp), length_lines,
        List.count_append, lastLine_newline]
      simpa using head?_lines b
    · have hkeep : (c :: b).takeWhile (· != '\n') = c :: b.takeWhile (· != '\n') :=
        List.takeWhile_cons_of_pos (by simpa using hc)
      rw [count_concat a hc, ih, lastLine_concat a hc, hkeep, List.append_assoc,
        List.singleton_append]

namespace Position

/-- Moving over a text is counting its line feeds and the characters after the last one. -/
theorem start_after (text : List Char) : start.after text = endOf text := by
  induction text using List.reverseRecOn with
  | nil => rfl
  | append_singleton text c ih =>
    rw [after_append, ih, after_cons, after_nil, next]
    by_cases hc : c = '\n'
    · subst hc
      rw [if_pos rfl, endOf, endOf, lastLine_newline, List.count_append]
      simp [Int.add_assoc]
    · rw [if_neg hc, endOf, endOf, lastLine_concat text hc, count_concat text hc,
        List.length_append]
      rfl

theorem endOf_after (front chars : List Char) :
    (endOf front).after chars = endOf (front ++ chars) := by
  rw [← start_after, ← start_after, after_append]

lemma after_of_not_mem (p : Position) {text : List Char} (h : '\n' ∉ text) :
    p.after text = ⟨p.line, p.column + text.length⟩ := by
  induction text generalizing p with
  | nil => simp
  | cons c text ih =>
    rw [List.mem_cons, not_or] at h
    rw [after_cons, ih _ h.2, next, if_neg (Ne.symm h.1), List.length_cons]
    simp only [Position.mk.injEq, true_and]
    omega

lemma le_after (p : Position) (text : List Char) :
    p.line < (p.after text).line ∨
      (p.after text).line = p.line ∧ p.column ≤ (p.after text).column := by
  induction text using List.reverseRecOn with
  | nil => exact Or.inr ⟨rfl, Int.le_refl _⟩
  | append_singleton text c ih =>
    rw [after_append, after_cons, after_nil, next]
    by_cases hc : c = '\n'
    · rw [if_pos hc]
      left
      dsimp only
      omega
    · rw [if_neg hc]
      dsimp only
      omega

lemma one_le_line_endOf (text : List Char) : 1 ≤ (endOf text).line := by
  rw [endOf]
  dsimp only
  omega

/-- A place in a part of a text is found in the whole by moving on from the end of what comes
before the part. -/
lemma shift_endOf (base : Position) (text : List Char) :
    base.shift (endOf text) = base.after text := by
  induction text using List.reverseRecOn with
  | nil => exact shift_start base
  | append_singleton text c ih =>
    have hline := one_le_line_endOf text
    rw [after_append, ← ih, ← start_after, after_append, start_after, after_cons, after_nil,
      after_cons, after_nil, next, next]
    by_cases hc : c = '\n'
    · have hne : ¬ (endOf text).line + 1 = 1 := by omega
      simp only [if_pos hc, shift, if_neg hne, Position.mk.injEq, and_true]
      omega
    · by_cases hfirst : (endOf text).line = 1
      · simp only [if_neg hc, shift, if_pos hfirst, Int.add_assoc]
      · simp only [if_neg hc, shift, if_neg hfirst]

end Position

end Munch
