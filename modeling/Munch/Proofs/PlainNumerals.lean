import Mathlib.Data.List.TakeWhile
import Mathlib.Data.Nat.Digits.Defs
import Munch.Numeral

/-!
# Numerals in plain digits

A numeral in the digits from 0 to 9, with at most a minus sign in front of them, is read as the number that
its digits make (`int?_text`).
-/

namespace Munch.Numeral

/-- A decimal numeral of the size that is read, most significant digit first. It may begin with zeros. -/
structure Plain where
  negative : Bool
  digits : List (Fin 10)
  digits_ne_nil : digits ≠ []
  length_le : digits.length ≤ 4300

namespace Plain

/-- The characters of digits. -/
def chars (digits : List (Fin 10)) : List Char := digits.map fun d => Nat.digitChar d.val

/-- The numeral as it is typed. -/
def text (n : Plain) : List Char := if n.negative then '-' :: chars n.digits else chars n.digits

/-- The number without its sign. -/
def size (n : Plain) : Nat := Nat.ofDigits 10 (n.digits.map Fin.val).reverse

/-- The number that the numeral stands for. -/
def value (n : Plain) : Int := if n.negative then -n.size else n.size

lemma ofDigits_eq (digits : List Nat) : ofDigits digits = Nat.ofDigits 10 digits.reverse := by
  rw [ofDigits, Nat.ofDigits_eq_foldr, List.foldr_reverse]
  simp only [Nat.cast_id, Nat.add_comm]

lemma digit?_digitChar (d : Fin 10) : digit? (Nat.digitChar d.val) = some d.val := by
  have hall : ∀ d : Fin 10, digit? (Nat.digitChar d.val) = some d.val := by decide
  exact hall d

/-- A digit is no blank, no sign and no underscore. -/
lemma digitChar_plain (d : Fin 10) :
    isBlank (Nat.digitChar d.val) = false ∧ Nat.digitChar d.val ≠ '+' ∧ Nat.digitChar d.val ≠ '-' ∧
      Nat.digitChar d.val ≠ '_' := by
  have hall : ∀ d : Fin 10, isBlank (Nat.digitChar d.val) = false ∧ Nat.digitChar d.val ≠ '+' ∧
    Nat.digitChar d.val ≠ '-' ∧ Nat.digitChar d.val ≠ '_' := by decide
  exact hall d

lemma digits?_chars {digits : List (Fin 10)} (h : digits ≠ []) :
    digits? (chars digits) = some (digits.map Fin.val) := by
  induction digits with
  | nil => exact absurd rfl h
  | cons d digits ih =>
    cases digits with
    | nil => simp [chars, digits?, digit?_digitChar]
    | cons e digits =>
      have hrest := ih (List.cons_ne_nil e digits)
      have hunderscore := (digitChar_plain e).2.2.2
      simp only [chars, List.map_cons] at hrest ⊢
      rw [digits?, digit?_digitChar, hrest]
      · rfl
      · simp
      · simp [hunderscore]

lemma nat?_chars (n : Plain) : nat? (chars n.digits) = some n.size := by
  have hlength : (n.digits.map Fin.val).length ≤ maxDigits := by
    rw [List.length_map]
    exact n.length_le
  rw [nat?, digits?_chars n.digits_ne_nil, size, ← ofDigits_eq]
  exact if_pos hlength

lemma isBlank_of_mem_text {n : Plain} {c : Char} (h : c ∈ n.text) : isBlank c = false := by
  have hdigit (hc : c ∈ chars n.digits) : isBlank c = false := by
    obtain ⟨d, -, rfl⟩ := List.mem_map.mp hc
    exact (digitChar_plain d).1
  unfold text at h
  split at h
  · rcases List.mem_cons.mp h with rfl | h
    · decide
    · exact hdigit h
  · exact hdigit h

/-- The numeral is read as its number. -/
theorem int?_text (n : Plain) : int? (String.ofList n.text) = some n.value := by
  have hkeep {text : List Char} (h : text ⊆ n.text) : text.dropWhile isBlank = text := by
    rw [List.dropWhile_eq_self_iff]
    intro hlength
    rw [isBlank_of_mem_text (h (List.getElem_mem hlength))]
    decide
  have hfront := hkeep (List.Subset.refl n.text)
  have hback := hkeep (fun c hc => List.mem_reverse.mp hc : n.text.reverse ⊆ n.text)
  rw [int?, String.toList_ofList, hfront, hback, List.reverse_reverse, text, value]
  cases n.negative with
  | true => simp [nat?_chars]
  | false =>
    obtain ⟨d, digits, hdigits⟩ := List.exists_cons_of_ne_nil n.digits_ne_nil
    have hhead : chars n.digits = Nat.digitChar d.val :: chars digits := by rw [hdigits]; rfl
    simp only [Bool.false_eq_true, if_false]
    split
    next rest h => exact absurd (List.cons.inj (hhead.symm.trans h)).1 (digitChar_plain d).2.1
    next rest h => exact absurd (List.cons.inj (hhead.symm.trans h)).1 (digitChar_plain d).2.2.1
    next => simp [nat?_chars]

end Plain

end Munch.Numeral
