import Mathlib.Logic.Function.Basic
import Munch.Diagnostic
import Munch.Proofs.RoundTrip

/-!
# Quoted texts are read back

Each character that stands between two marks is read back whatever follows it (`readWritten_escape`), so
two texts are quoted alike only if they are equal (`quote_injective`). Nothing but printable characters is
ever written (`isPrintable_of_mem_quoteChars`).
-/

namespace Munch

namespace Text

/-- The value of a hexadecimal digit, in lower or upper case. -/
def hexDigit (c : Char) : Nat :=
  if c.isDigit then c.toNat - 48 else if c.isUpper then c.toNat - 55 else c.toNat - 87

/-- The number that a hexadecimal numeral stands for. -/
def hexNumber (digits : List Char) : Nat := digits.foldl (fun n c => 16 * n + hexDigit c) 0

lemma hexDigit_digitChar {d : Nat} (h : d < 16) :
    hexDigit (Nat.digitChar d) = d ∧ hexDigit (Nat.digitChar d).toUpper = d := by
  have hall : ∀ d : Fin 16,
      hexDigit (Nat.digitChar d) = d ∧ hexDigit (Nat.digitChar d).toUpper = d := by decide
  exact hall ⟨d, h⟩

lemma exists_of_mem_hexDigits {width n : Nat} {x : Char} (h : x ∈ hexDigits width n) :
    ∃ d < 16, x = Nat.digitChar d := by
  induction width generalizing n with
  | zero => exact absurd h List.not_mem_nil
  | succ width ih =>
    rw [hexDigits, List.mem_append, List.mem_singleton] at h
    rcases h with h | rfl
    · exact ih h
    · exact ⟨n % 16, Nat.mod_lt n (by decide), rfl⟩

lemma hexNumber_concat (digits : List Char) (c : Char) :
    hexNumber (digits ++ [c]) = 16 * hexNumber digits + hexDigit c := by
  rw [hexNumber, List.foldl_append]
  rfl

/-- A numeral that is wide enough is read as its number. -/
theorem hexNumber_hexDigits {width n : Nat} (h : n < Nat.pow 16 width) :
    hexNumber (hexDigits width n) = n ∧ hexNumber ((hexDigits width n).map Char.toUpper) = n := by
  induction width generalizing n with
  | zero =>
    obtain rfl : n = 0 := Nat.lt_one_iff.mp h
    exact ⟨rfl, rfl⟩
  | succ width ih =>
    have hquotient : n / 16 < Nat.pow 16 width := by
      rw [Nat.div_lt_iff_lt_mul (by decide)]
      exact h
    obtain ⟨hlower, hupper⟩ := ih hquotient
    obtain ⟨hdigit, hcapital⟩ := hexDigit_digitChar (Nat.mod_lt n (by decide : 16 > 0))
    rw [hexDigits, List.map_append, List.map_singleton, hexNumber_concat, hexNumber_concat, hlower, hupper,
      hdigit, hcapital]
    omega

/-- The character that a hexadecimal numeral of some width stands for, with what follows the numeral. -/
def readHex (width : Nat) (text : List Char) : Char × List Char :=
  (Char.ofNat (hexNumber (text.take width)), text.drop width)

/-- The character that the beginning of a quoted text stands for, with what follows. -/
def readWritten : List Char → Option (Char × List Char)
  | '\\' :: 't' :: rest => some ('\t', rest)
  | '\\' :: 'n' :: rest => some ('\n', rest)
  | '\\' :: 'r' :: rest => some ('\r', rest)
  | '\\' :: 'x' :: rest => some (readHex 2 rest)
  | '\\' :: 'u' :: rest => some (readHex 4 rest)
  | '\\' :: 'U' :: rest => some (readHex 8 rest)
  | '\\' :: c :: rest => some (c, rest)
  | c :: rest => some (c, rest)
  | [] => none

lemma readHex_hexDigits (width : Nat) {c : Char} (h : c.toNat < Nat.pow 16 width) (rest : List Char) :
    readHex width (hexDigits width c.toNat ++ rest) = (c, rest) := by
  rw [readHex, List.take_left' (length_hexDigits width c.toNat),
    List.drop_left' (length_hexDigits width c.toNat), (hexNumber_hexDigits h).1, Char.ofNat_toNat]

/-- A written character is read back, whatever follows it. -/
theorem readWritten_escape {mark : Char} (hmark : mark = '\'' ∨ mark = '"') (c : Char) (rest : List Char) :
    readWritten (escape mark c ++ rest) = some (c, rest) := by
  unfold escape
  split_ifs with hescaped htab hfeed hreturn hprintable htwo hfour
  · -- a mark or a backslash is none of the letters that a backslash gives another meaning
    rcases hescaped with rfl | rfl
    · rcases hmark with rfl | rfl <;> rfl
    · rfl
  · rw [htab]
    rfl
  · rw [hfeed]
    rfl
  · rw [hreturn]
    rfl
  · have hplain : c ≠ '\\' := fun h => hescaped (Or.inr h)
    simp [readWritten, hplain]
  · simp [readWritten, readHex_hexDigits 2 htwo]
  · simp [readWritten, readHex_hexDigits 4 hfour]
  · have hlast : c.toNat < Nat.pow 16 8 := by
      have hvalid := toNat_valid c
      have hpow : Nat.pow 16 8 = 4294967296 := rfl
      omega
    simp [readWritten, readHex_hexDigits 8 hlast]

lemma escape_append_inj {mark c d : Char} (hmark : mark = '\'' ∨ mark = '"') {s t : List Char}
    (h : escape mark c ++ s = escape mark d ++ t) : c = d ∧ s = t := by
  have hread := readWritten_escape hmark c s
  rw [h, readWritten_escape hmark, Option.some_inj, Prod.mk.injEq] at hread
  exact ⟨hread.1.symm, hread.2.symm⟩

lemma escape_ne_nil {mark c : Char} (hmark : mark = '\'' ∨ mark = '"') : escape mark c ≠ [] := by
  intro h
  have hread := readWritten_escape hmark c []
  rw [h] at hread
  exact absurd hread (by simp [readWritten])

lemma flatMap_escape_inj {mark : Char} (hmark : mark = '\'' ∨ mark = '"') {a b : List Char}
    (h : a.flatMap (escape mark) = b.flatMap (escape mark)) : a = b := by
  induction a generalizing b with
  | nil =>
    cases b with
    | nil => rfl
    | cons d b => exact absurd (List.append_eq_nil_iff.mp h.symm).1 (escape_ne_nil hmark)
  | cons c a ih =>
    cases b with
    | nil => exact absurd (List.append_eq_nil_iff.mp h).1 (escape_ne_nil hmark)
    | cons d b =>
      obtain ⟨rfl, hrest⟩ := escape_append_inj hmark h
      rw [ih hrest]

lemma quoteChars_inj {a b : List Char} (h : quoteChars a = quoteChars b) : a = b := by
  rw [quoteChars, quoteChars] at h
  obtain ⟨hmark, hrest⟩ := List.cons.inj h
  rw [← hmark] at hrest
  exact flatMap_escape_inj (quoteMark_eq a) (List.append_cancel_right hrest)

/-- Two texts that are quoted alike are equal. -/
theorem quote_injective : Function.Injective quote := by
  intro a b h
  exact String.toList_injective (quoteChars_inj (String.ofList_injective h))

/-- The printable characters of ASCII. -/
def isGraphic (c : Char) : Bool := 0x20 ≤ c.toNat && c.toNat < 0x7f

lemma isPrintable_of_graphic {c : Char} (h : isGraphic c = true) : isPrintable c = true := by
  have hranges : unprintable.all (fun range => range.2 < 0x20 || 0x7f ≤ range.1) = true := by
    decide +kernel
  rw [isPrintable, Bool.not_eq_true', List.any_eq_false]
  intro range hmem hwithin
  have hrange := List.all_eq_true.mp hranges range hmem
  simp only [isGraphic, Bool.or_eq_true, Bool.and_eq_true, decide_eq_true_eq] at hrange hwithin h
  omega

/-- The characters that stand for others: a backslash, the letters after one and hexadecimal digits. -/
def escapeAlphabet : List Char :=
  ['\\', 't', 'n', 'r', 'x', 'u', 'U', '0', '1', '2', '3', '4', '5', '6', '7', '8', '9', 'a', 'b', 'c', 'd',
    'e', 'f']

lemma hexDigits_subset (width n : Nat) : hexDigits width n ⊆ escapeAlphabet := by
  intro x h
  obtain ⟨d, hd, rfl⟩ := exists_of_mem_hexDigits h
  have hall : ∀ d : Fin 16, Nat.digitChar d ∈ escapeAlphabet := by decide
  exact hall ⟨d, hd⟩

/-- A written character holds itself, if it is printable, and characters that stand for others. -/
lemma mem_escape {mark c x : Char} (hmark : isPrintable mark = true) (h : x ∈ escape mark c) :
    x = c ∧ isPrintable c = true ∨ x ∈ escapeAlphabet := by
  have hwritten (width : Nat) {y : Char} (hy : y ∈ escapeAlphabet) :
      '\\' :: y :: hexDigits width c.toNat ⊆ escapeAlphabet :=
    List.cons_subset.mpr ⟨by decide, List.cons_subset.mpr ⟨hy, hexDigits_subset width c.toNat⟩⟩
  unfold escape at h
  split_ifs at h with hescaped htab hfeed hreturn hprintable
  · simp only [List.mem_cons, List.not_mem_nil, or_false] at h
    rcases h with rfl | rfl
    · exact Or.inr (by decide)
    · rcases hescaped with rfl | rfl
      · exact Or.inl ⟨rfl, hmark⟩
      · exact Or.inr (by decide)
  -- a letter alone is a letter before a numeral of no digits
  · exact Or.inr (hwritten 0 (by decide) h)
  · exact Or.inr (hwritten 0 (by decide) h)
  · exact Or.inr (hwritten 0 (by decide) h)
  · exact Or.inl ⟨List.mem_singleton.mp h, hprintable⟩
  · exact Or.inr (hwritten 2 (by decide) h)
  · exact Or.inr (hwritten 4 (by decide) h)
  · exact Or.inr (hwritten 8 (by decide) h)

lemma isPrintable_quoteMark (text : List Char) : isPrintable (quoteMark text) = true := by
  rcases quoteMark_eq text with h | h <;> rw [h] <;> exact isPrintable_of_graphic (by decide)

/-- The written form of a text holds printable characters only. -/
theorem isPrintable_of_mem_quoteChars {text : List Char} {x : Char} (h : x ∈ quoteChars text) :
    isPrintable x = true := by
  have hmark := isPrintable_quoteMark text
  simp only [quoteChars, List.mem_cons, List.mem_append, List.mem_flatMap, List.not_mem_nil, or_false] at h
  rcases h with rfl | ⟨c, -, hx⟩ | rfl
  · exact hmark
  · rcases mem_escape hmark hx with ⟨rfl, hprintable⟩ | hstands
    · exact hprintable
    · have hall : escapeAlphabet.all isGraphic = true := by decide
      exact isPrintable_of_graphic (List.all_eq_true.mp hall x hstands)
  · exact hmark

lemma toList_codePointLabel (c : Char) :
    ∃ width, c.toNat < Nat.pow 16 width ∧
      (codePointLabel c).toList = 'U' :: '+' :: (hexDigits width c.toNat).map Char.toUpper := by
  refine ⟨if c.toNat < 0x10000 then 4 else if c.toNat < 0x100000 then 5 else 6, ?_, by simp [codePointLabel]⟩
  have hvalid := toNat_valid c
  have hpow : Nat.pow 16 4 = 0x10000 ∧ Nat.pow 16 5 = 0x100000 ∧ Nat.pow 16 6 = 0x1000000 := ⟨rfl, rfl, rfl⟩
  split_ifs with hfour hfive <;> omega

theorem codePointLabel_injective : Function.Injective codePointLabel := by
  intro c d h
  obtain ⟨width, hwidth, hc⟩ := toList_codePointLabel c
  obtain ⟨width', hwidth', hd⟩ := toList_codePointLabel d
  rw [h, hd, List.cons.injEq, List.cons.injEq] at hc
  have hnumber := congrArg hexNumber hc.2.2
  rw [(hexNumber_hexDigits hwidth').2, (hexNumber_hexDigits hwidth).2] at hnumber
  rw [← Char.ofNat_toNat c, ← Char.ofNat_toNat d, hnumber]

end Text

namespace Diagnostic

/-- Two characters are shown alike only if they are equal. -/
theorem showChar_injective : Function.Injective showChar := by
  intro c d h
  have hquoted (x y : Char) : Text.quote (String.singleton x) ≠ Text.codePointLabel y := by
    intro h
    have hhead := congrArg (fun text => text.toList.head?) h
    obtain ⟨width, -, hlabel⟩ := Text.toList_codePointLabel y
    simp only [hlabel, Text.quote, String.toList_ofList, Text.quoteChars, List.head?_cons, Option.some_inj]
      at hhead
    rcases Text.quoteMark_eq (String.singleton x).toList with hmark | hmark <;> rw [hmark] at hhead <;>
      exact absurd hhead (by decide)
  unfold showChar at h
  split at h <;> split at h
  · simpa using Text.quote_injective h
  · exact absurd h (hquoted c d)
  · exact absurd h.symm (hquoted d c)
  · exact Text.codePointLabel_injective h

end Diagnostic

end Munch
