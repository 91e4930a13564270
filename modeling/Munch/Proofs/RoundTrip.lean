import Mathlib.Data.Nat.Init
import Mathlib.Tactic.SplitIfs
import Munch.Encoding

/-!
# Texts come back from their bytes

What an encoding writes for a text, it reads as that text (`Encoding.decode?_of_encode?`). Each
character is read back whatever follows it, so texts of any length come back character by
character.
-/

namespace Munch

lemma toNat_valid (c : Char) : c.toNat < 0xD800 ∨ 0xDFFF < c.toNat ∧ c.toNat < 0x110000 := c.valid

namespace Encoding

namespace Utf8

lemma toNat_trail (n : Nat) : (trail n).toNat = 0x80 + n % 64 := by
  rw [trail, UInt8.toNat_ofNat']
  omega

section Pending

variable {n low high : Nat} (rest : List UInt8)

lemma decodeFrom_last_trail (hlow : low ≤ 0x80 + n % 64) (hhigh : 0x80 + n % 64 ≤ high) :
    decodeFrom (some ⟨1, n / 64, low, high⟩) (trail n :: rest) =
      Char.ofNat n :: decodeFrom none rest := by
  have hvalue : n / 64 * 64 + (0x80 + n % 64 - 0x80) = n := by omega
  rw [decodeFrom_cons, toNat_trail, step, if_pos ⟨hlow, hhigh⟩]
  simp only [if_true, hvalue, List.singleton_append]

lemma decodeFrom_trail (owed : Nat) (hlow : low ≤ 0x80 + n % 64) (hhigh : 0x80 + n % 64 ≤ high) :
    decodeFrom (some ⟨owed + 2, n / 64, low, high⟩) (trail n :: rest) =
      decodeFrom (some ⟨owed + 1, n, 0x80, 0xBF⟩) rest := by
  have hvalue : n / 64 * 64 + (0x80 + n % 64 - 0x80) = n := by omega
  have howed : ¬ owed + 2 = 1 := by omega
  rw [decodeFrom_cons, toNat_trail, step, if_pos ⟨hlow, hhigh⟩]
  simp only [if_neg howed, hvalue, List.nil_append]
  rfl

lemma decodeFrom_lead {b : Nat} {p : Pending} (hb : b < 256) (h : lead b = .start p) :
    decodeFrom none (.ofNat b :: rest) = decodeFrom (some p) rest := by
  rw [decodeFrom_cons, UInt8.toNat_ofNat', Nat.mod_eq_of_lt hb, step, enter, h]
  rfl

end Pending

lemma lead_of_two {n : Nat} (hlow : 0x80 ≤ n) (hhigh : n < 0x800) :
    lead (0xC0 + n / 0x40) = .start ⟨1, n / 64, 0x80, 0xBF⟩ := by
  unfold lead
  rw [if_neg (by omega), if_neg (by omega), if_pos (by omega), Nat.add_sub_cancel_left]

/-- The second byte is never one that the first shuts out. -/
lemma lead_of_three {n : Nat} (hlow : 0x800 ≤ n) (hhigh : n < 0x10000)
    (hvalid : n < 0xD800 ∨ 0xDFFF < n) :
    ∃ low high, lead (0xE0 + n / 0x1000) = .start ⟨2, n / 0x40 / 64, low, high⟩ ∧
      low ≤ 0x80 + n / 0x40 % 64 ∧ 0x80 + n / 0x40 % 64 ≤ high := by
  have hdiv : n / 0x40 / 64 = n / 0x1000 := Nat.div_div_eq_div_mul n 64 64
  rw [hdiv]
  unfold lead
  rw [if_neg (by omega), if_neg (by omega), if_neg (by omega), Nat.add_sub_cancel_left]
  by_cases hfirst : n / 0x1000 = 0
  · rw [if_pos (by omega), hfirst]
    exact ⟨_, _, rfl, by omega, by omega⟩
  · rw [if_neg (by omega)]
    by_cases hsurrogate : n / 0x1000 = 0xD
    · rw [if_pos (by omega), hsurrogate]
      exact ⟨_, _, rfl, by omega, by omega⟩
    · rw [if_neg (by omega), if_pos (by omega)]
      exact ⟨_, _, rfl, by omega, by omega⟩

lemma lead_of_four {n : Nat} (hlow : 0x10000 ≤ n) (hhigh : n < 0x110000) :
    ∃ low high, lead (0xF0 + n / 0x40000) = .start ⟨3, n / 0x1000 / 64, low, high⟩ ∧
      low ≤ 0x80 + n / 0x1000 % 64 ∧ 0x80 + n / 0x1000 % 64 ≤ high := by
  have hdiv : n / 0x1000 / 64 = n / 0x40000 := Nat.div_div_eq_div_mul n 4096 64
  rw [hdiv]
  unfold lead
  rw [if_neg (by omega), if_neg (by omega), if_neg (by omega), if_neg (by omega),
    if_neg (by omega), if_neg (by omega), Nat.add_sub_cancel_left]
  by_cases hfirst : n / 0x40000 = 0
  · rw [if_pos (by omega), hfirst]
    exact ⟨_, _, rfl, by omega, by omega⟩
  · rw [if_neg (by omega)]
    by_cases hlast : n / 0x40000 = 4
    · rw [if_neg (by omega), if_pos (by omega), hlast]
      exact ⟨_, _, rfl, by omega, by omega⟩
    · rw [if_pos (by omega)]
      exact ⟨_, _, rfl, by omega, by omega⟩

theorem decodeFrom_encodeChar (c : Char) (rest : List UInt8) :
    decodeFrom none (encodeChar c ++ rest) = c :: decodeFrom none rest := by
  have hvalid := toNat_valid c
  have hchar : Char.ofNat c.toNat = c := Char.ofNat_toNat c
  simp only [encodeChar]
  split_ifs with hone htwo hthree
  · have hlead : lead c.toNat = .char c := by rw [lead, if_pos hone, hchar]
    rw [List.singleton_append, decodeFrom_cons, UInt8.toNat_ofNat', Nat.mod_eq_of_lt (by omega),
      step, enter, hlead]
    rfl
  · have hlead := lead_of_two (n := c.toNat) (by omega) htwo
    rw [List.cons_append, List.singleton_append, decodeFrom_lead _ (by omega) hlead,
      decodeFrom_last_trail _ (by omega) (by omega), hchar]
  · obtain ⟨low, high, hlead, hlow, hhigh⟩ :=
      lead_of_three (n := c.toNat) (by omega) hthree (by omega)
    rw [List.cons_append, List.cons_append, List.singleton_append,
      decodeFrom_lead _ (by omega) hlead, decodeFrom_trail _ 0 hlow hhigh,
      decodeFrom_last_trail _ (by omega) (by omega), hchar]
  · obtain ⟨low, high, hlead, hlow, hhigh⟩ :=
      lead_of_four (n := c.toNat) (by omega) (by omega)
    have hdiv : c.toNat / 0x1000 = c.toNat / 0x40 / 64 :=
      (Nat.div_div_eq_div_mul c.toNat 64 64).symm
    rw [List.cons_append, List.cons_append, List.cons_append, List.singleton_append,
      decodeFrom_lead _ (by omega) hlead, decodeFrom_trail _ 1 hlow hhigh, hdiv,
      decodeFrom_trail _ 0 (by omega) (by omega),
      decodeFrom_last_trail _ (by omega) (by omega), hchar]

theorem decode_encode (text : List Char) : decode (encode text) = text := by
  induction text with
  | nil => rfl
  | cons c text ih =>
    rw [encode, List.flatMap_cons, decode, decodeFrom_encodeChar]
    exact congrArg (c :: ·) ih

end Utf8

namespace Utf16

variable {order : ByteOrder}

lemma units_unitBytes {u : Nat} (hu : u < 0x10000) (rest : List UInt8) :
    units order (unitBytes order u ++ rest) =
      (u :: (units order rest).1, (units order rest).2) := by
  have hhigh : (u / 256) % 2 ^ 8 = u / 256 := Nat.mod_eq_of_lt (by omega)
  have hlow : (u % 256) % 2 ^ 8 = u % 256 := Nat.mod_eq_of_lt (by omega)
  have hunit : u / 256 * 256 + u % 256 = u := by omega
  cases order <;>
    simp only [unitBytes, List.cons_append, List.nil_append, units, unit, UInt8.toNat_ofNat', hhigh,
      hlow, hunit]

lemma units_flatMap {us : List Nat} (hus : ∀ u ∈ us, u < 0x10000) :
    units order (us.flatMap (unitBytes order)) = (us, false) := by
  induction us with
  | nil => rfl
  | cons u us ih =>
    rw [List.forall_mem_cons] at hus
    rw [List.flatMap_cons, units_unitBytes hus.1, ih hus.2]

lemma lt_of_mem_charUnits (c : Char) : ∀ u ∈ charUnits c, u < 0x10000 := by
  have hvalid := toNat_valid c
  intro u hu
  simp only [charUnits] at hu
  split_ifs at hu with hone
  · rw [List.mem_singleton] at hu
    omega
  · rw [List.mem_cons, List.mem_singleton] at hu
    omega

/-- A unit that is no surrogate stands for itself, whatever follows it. -/
lemma ofUnits_cons {u : Nat} (hhigh : isHigh u = false) (hlow : isLow u = false) (us : List Nat) :
    ofUnits false (u :: us) = Char.ofNat u :: ofUnits false us := by
  cases us <;> simp [ofUnits, hhigh, hlow]

lemma ofUnits_charUnits (c : Char) (us : List Nat) :
    ofUnits false (charUnits c ++ us) = c :: ofUnits false us := by
  have hvalid := toNat_valid c
  have hchar : Char.ofNat c.toNat = c := Char.ofNat_toNat c
  simp only [charUnits]
  split_ifs with hone
  · have hhigh : isHigh c.toNat = false := by
      rw [isHigh, Bool.and_eq_false_iff, decide_eq_false_iff_not, decide_eq_false_iff_not]
      omega
    have hlow : isLow c.toNat = false := by
      rw [isLow, Bool.and_eq_false_iff, decide_eq_false_iff_not, decide_eq_false_iff_not]
      omega
    rw [List.singleton_append, ofUnits_cons hhigh hlow, hchar]
  · have hhigh : isHigh (0xD800 + (c.toNat - 0x10000) / 0x400) = true := by
      rw [isHigh, Bool.and_eq_true, decide_eq_true_iff, decide_eq_true_iff]
      omega
    have hlow : isLow (0xDC00 + (c.toNat - 0x10000) % 0x400) = true := by
      rw [isLow, Bool.and_eq_true, decide_eq_true_iff, decide_eq_true_iff]
      omega
    have hvalue : 0x10000 + (0xD800 + (c.toNat - 0x10000) / 0x400 - 0xD800) * 0x400 +
        (0xDC00 + (c.toNat - 0x10000) % 0x400 - 0xDC00) = c.toNat := by
      omega
    simp only [List.cons_append, List.nil_append, ofUnits, hhigh, hlow, if_true, pair, hvalue, hchar]

theorem decode_encode (text : List Char) : decode order (encode order text) = text := by
  have hunits : ∀ u ∈ text.flatMap charUnits, u < 0x10000 := by
    intro u hu
    obtain ⟨c, -, hc⟩ := List.mem_flatMap.mp hu
    exact lt_of_mem_charUnits c u hc
  rw [decode, encode, units_flatMap hunits]
  induction text with
  | nil => rfl
  | cons c text ih =>
    have hrest : ∀ u ∈ text.flatMap charUnits, u < 0x10000 :=
      fun u hu => hunits u (List.mem_append_right _ hu)
    simp only [List.flatMap_cons, ofUnits_charUnits]
    exact congrArg (c :: ·) (ih hrest)

end Utf16

/-- The text of bytes that each are read on their own. -/
lemma map_encodeBelow {bound : Nat} {text : List Char} {bytes : List UInt8} {read : UInt8 → Char}
    (hread : ∀ c : Char, c.toNat < bound → read (.ofNat c.toNat) = c)
    (h : encodeBelow? bound text = some bytes) : bytes.map read = text := by
  unfold encodeBelow? at h
  split_ifs at h with hall
  obtain rfl := Option.some.inj h
  rw [List.all_eq_true] at hall
  rw [List.map_map]
  refine (List.map_congr_left ?_).trans (List.map_id text)
  intro c hc
  exact hread c (of_decide_eq_true (hall c hc))

lemma toNat_ofNat_toNat {c : Char} (h : c.toNat < 256) : (UInt8.ofNat c.toNat).toNat = c.toNat := by
  rw [UInt8.toNat_ofNat']
  exact Nat.mod_eq_of_lt h

lemma decodeAscii_ofNat {c : Char} (h : c.toNat < 128) : decodeAscii (.ofNat c.toNat) = c := by
  have hnat := toNat_ofNat_toNat (c := c) (by omega)
  have hlt : UInt8.ofNat c.toNat < 0x80 := UInt8.lt_iff_toNat_lt.mpr (by rw [hnat]; exact h)
  rw [decodeAscii, if_pos hlt, hnat, Char.ofNat_toNat]

/-- What an encoding writes, it reads back. -/
theorem decode?_of_encode? {e : Encoding} {order : ByteOrder} {text : List Char}
    {bytes : List UInt8} (h : e.encode? order text = some bytes) : e.decode? bytes = some text := by
  cases e with
  | utf8 =>
    obtain rfl := Option.some.inj h
    rw [decode?, Utf8.decode_encode]
  | utf8Marked =>
    obtain rfl := Option.some.inj h
    have hmark : utf8Mark.isPrefixOf (utf8Mark ++ Utf8.encode text) = true :=
      List.isPrefixOf_iff_prefix.mpr (List.prefix_append _ _)
    have hdrop : (utf8Mark ++ Utf8.encode text).drop 3 = Utf8.encode text := rfl
    rw [decode?, decodeMarked, if_pos hmark, hdrop, Utf8.decode_encode]
  | utf16 =>
    obtain rfl := Option.some.inj h
    have hlong : ¬ (Utf16.mark order ++ Utf16.encode order text).length < 2 := by
      cases order <;> simp [Utf16.mark, Utf16.unitBytes]
    have hdrop : (Utf16.mark order ++ Utf16.encode order text).drop 2 = Utf16.encode order text := by
      cases order <;> rfl
    have hmark : (Utf16.mark order).isPrefixOf (Utf16.mark order ++ Utf16.encode order text) :=
      List.isPrefixOf_iff_prefix.mpr (List.prefix_append _ _)
    rw [decode?, if_neg hlong, hdrop]
    cases order with
    | little => rw [if_pos hmark, Utf16.decode_encode]
    | big =>
      have hother : ¬ (Utf16.mark .little).isPrefixOf (Utf16.mark .big ++ Utf16.encode .big text) := by
        rw [List.isPrefixOf_iff_prefix]
        rintro ⟨rest, hrest⟩
        simp [Utf16.mark, Utf16.unitBytes] at hrest
      rw [if_neg hother, if_pos hmark, Utf16.decode_encode]
  | utf16Of order' =>
    obtain rfl := Option.some.inj h
    rw [decode?, Utf16.decode_encode]
  | latin1 =>
    have hread : ∀ c : Char, c.toNat < 256 → Char.ofNat (UInt8.ofNat c.toNat).toNat = c := by
      intro c hc
      rw [toNat_ofNat_toNat hc, Char.ofNat_toNat]
    rw [decode?, map_encodeBelow hread h]
  | ascii => rw [decode?, map_encodeBelow (fun c hc => decodeAscii_ofNat hc) h]

end Encoding

end Munch
