import Mathlib.Data.List.SplitBy
import Munch.Encoding

/-!
# Bytes below and beyond ASCII

A sequence of bytes falls into runs of ASCII bytes and of other bytes, in turns (`alternates_runs`).
UTF-8, Latin-1 and ASCII read ASCII bytes as themselves wherever they stand, and make one or more
characters beyond ASCII of any run of other bytes, but no more than it has bytes
(`keepsAscii_read`). So no ill-formed sequence takes an ASCII byte with it.
-/

namespace Munch.Encoding

/-- A byte that stands for no ASCII character. -/
def beyond (b : UInt8) : Bool := 0x80 ≤ b

/-- The longest runs of bytes on one side of 0x80, in order. -/
def runs (bytes : List UInt8) : List (List UInt8) := bytes.splitBy fun a b => beyond a == beyond b

def asciiText (bytes : List UInt8) : List Char := bytes.map fun b => Char.ofNat b.toNat

lemma beyond_iff {b : UInt8} : beyond b = true ↔ 0x80 ≤ b.toNat := by
  rw [beyond, decide_eq_true_iff, UInt8.le_iff_toNat_le]
  rfl

lemma not_beyond_iff {b : UInt8} : beyond b = false ↔ b.toNat < 0x80 := by
  rw [← Bool.not_eq_true, beyond_iff, Nat.not_le]

/-- Runs of bytes that are each on one side, the next one on the other. -/
inductive Alternates : List (List UInt8) → Prop
  | nil : Alternates []
  | cons {run : List UInt8} {rest : List (List UInt8)} (side : Bool) (nonempty : run ≠ [])
      (same : ∀ b ∈ run, beyond b = side) (turn : ∀ b ∈ rest.flatten.head?, beyond b = !side)
      (more : Alternates rest) : Alternates (run :: rest)

lemma beyond_eq_of_isChain {a : UInt8} {run : List UInt8}
    (h : (a :: run).IsChain fun a b => beyond a == beyond b) : ∀ b ∈ a :: run, beyond b = beyond a := by
  induction run generalizing a with
  | nil =>
    intro b hb
    rw [List.mem_singleton.mp hb]
  | cons c run ih =>
    rw [List.isChain_cons_cons, beq_iff_eq] at h
    intro b hb
    rcases List.mem_cons.mp hb with rfl | hb
    · rfl
    · rw [ih h.2 b hb, h.1]

lemma alternates_of_isChain {rs : List (List UInt8)}
    (hsame : ∀ run ∈ rs, run ≠ [] ∧ run.IsChain fun a b => beyond a == beyond b)
    (hturn : rs.IsChain fun a b =>
      ∃ ha hb, (beyond (a.getLast ha) == beyond (b.head hb)) = false) : Alternates rs := by
  induction rs with
  | nil => exact .nil
  | cons run rs ih =>
    rw [List.forall_mem_cons] at hsame
    obtain ⟨⟨hne, hchain⟩, hrest⟩ := hsame
    have hmore := ih hrest hturn.tail
    cases run with
    | nil => exact absurd rfl hne
    | cons a run =>
      have hside := beyond_eq_of_isChain hchain
      refine .cons (beyond a) hne hside ?_ hmore
      intro b hb
      cases rs with
      | nil => simp at hb
      | cons next rs =>
        rw [List.isChain_cons_cons] at hturn
        obtain ⟨ha, hn, hdiffer⟩ := hturn.1
        have hlast : beyond ((a :: run).getLast ha) = beyond a := hside _ (List.getLast_mem ha)
        have hhead : next.head hn = b := by
          rw [List.flatten_cons, List.head?_append_of_ne_nil _ hn, List.head?_eq_some_head hn,
            Option.mem_some] at hb
          exact hb
        rw [hlast, hhead, beq_eq_false_iff_ne] at hdiffer
        exact Bool.eq_not.mpr hdiffer.symm

theorem alternates_runs (bytes : List UInt8) : Alternates (runs bytes) := by
  apply alternates_of_isChain
  · intro run hrun
    exact ⟨List.ne_nil_of_mem_splitBy hrun, List.isChain_of_mem_splitBy hrun⟩
  · exact List.isChain_getLast_head_splitBy (fun a b => beyond a == beyond b) bytes

lemma flatten_runs (bytes : List UInt8) : (runs bytes).flatten = bytes :=
  List.flatten_splitBy _ bytes

inductive RunText : List UInt8 → List Char → Prop
  | ascii {run : List UInt8} (h : ∀ b ∈ run, beyond b = false) : RunText run (asciiText run)
  | beyond {run : List UInt8} {text : List Char} (h : ∀ b ∈ run, beyond b = true)
      (nonempty : 1 ≤ text.length) (most : text.length ≤ run.length)
      (each : ∀ c ∈ text, 0x80 ≤ c.toNat) : RunText run text

/-- ASCII bytes are read as themselves and a run of other bytes as characters beyond ASCII, both
whatever comes next. -/
structure KeepsAscii (read : List UInt8 → List Char) : Prop where
  read_nil : read [] = []
  read_run : ∀ {side : Bool} {run rest : List UInt8}, run ≠ [] → (∀ b ∈ run, beyond b = side) →
    (∀ b ∈ rest.head?, beyond b = !side) →
    ∃ text, RunText run text ∧ read (run ++ rest) = text ++ read rest

theorem KeepsAscii.read_flatten {read : List UInt8 → List Char} (h : KeepsAscii read)
    {rs : List (List UInt8)} (hrs : Alternates rs) :
    ∃ texts, List.Forall₂ RunText rs texts ∧ read rs.flatten = texts.flatten := by
  induction hrs with
  | nil => exact ⟨[], .nil, h.read_nil⟩
  | cons side nonempty same turn more ih =>
    obtain ⟨texts, hforall, hread⟩ := ih
    obtain ⟨text, hrun, happend⟩ := h.read_run nonempty same turn
    refine ⟨text :: texts, .cons hrun hforall, ?_⟩
    rw [List.flatten_cons, happend, hread, List.flatten_cons]

lemma keepsAscii_map {read : UInt8 → Char}
    (hascii : ∀ b, beyond b = false → read b = Char.ofNat b.toNat)
    (hbeyond : ∀ b, beyond b = true → 0x80 ≤ (read b).toNat) :
    KeepsAscii (List.map read) := by
  constructor
  · rfl
  · intro side run rest hne hsame _
    refine ⟨run.map read, ?_, List.map_append⟩
    cases side with
    | false =>
      have htext : run.map read = asciiText run :=
        List.map_congr_left fun b hb => hascii b (hsame b hb)
      rw [htext]
      exact .ascii hsame
    | true =>
      refine .beyond hsame ?_ ?_ ?_
      · rw [List.length_map]
        exact List.length_pos_iff.mpr hne
      · rw [List.length_map]
      · intro c hc
        obtain ⟨b, hb, rfl⟩ := List.mem_map.mp hc
        exact hbeyond b (hsame b hb)

lemma toNat_ofNat {n : Nat} (h : n < 0xD800 ∨ 0xDFFF < n ∧ n < 0x110000) :
    (Char.ofNat n).toNat = n := by
  rw [Char.ofNat, dif_pos h]
  rfl

lemma keepsAscii_latin1 : KeepsAscii (List.map fun b => Char.ofNat b.toNat) := by
  apply keepsAscii_map
  · exact fun b _ => rfl
  · intro b hb
    have hlt := b.toNat_lt
    rw [toNat_ofNat (by omega)]
    exact beyond_iff.mp hb

lemma keepsAscii_ascii : KeepsAscii (List.map decodeAscii) := by
  have hside (b : UInt8) : b < 0x80 ↔ ¬ beyond b = true := by
    rw [beyond_iff, UInt8.lt_iff_toNat_lt, Nat.not_le]
    rfl
  apply keepsAscii_map
  · intro b hb
    rw [decodeAscii, if_pos ((hside b).mpr (by rw [hb]; decide))]
  · intro b hb
    rw [decodeAscii, if_neg (fun hlow => (hside b).mp hlow hb)]
    decide

namespace Utf8

/-- No ASCII byte goes on with the sequence, and what completes it makes a character beyond ASCII. -/
inductive Pending.Sound : Pending → Prop
  | last {value low high : Nat} (low_beyond : 0x80 ≤ low)
      (done : ∀ b, low ≤ b → b ≤ high → 0x80 ≤ (Char.ofNat (value * 64 + (b - 0x80))).toNat) :
      Sound ⟨1, value, low, high⟩
  | more {owed value low high : Nat} (low_beyond : 0x80 ≤ low)
      (next : ∀ b, low ≤ b → b ≤ high →
        Sound ⟨owed + 1, value * 64 + (b - 0x80), 0x80, 0xBF⟩) :
      Sound ⟨owed + 2, value, low, high⟩

def pendingCount (p : Option Pending) : Nat := if p.isSome then 1 else 0

@[simp] lemma pendingCount_none : pendingCount none = 0 := rfl

@[simp] lemma pendingCount_some (p : Pending) : pendingCount (some p) = 1 := rfl

def BeyondScalar (n : Nat) : Prop := 0x80 ≤ n ∧ (n < 0xD800 ∨ 0xDFFF < n ∧ n < 0x110000)

section Leads

variable {value low high : Nat}

lemma sound_one (hlow : 0x80 ≤ low)
    (h : ∀ n, value * 64 + (low - 0x80) ≤ n → n ≤ value * 64 + (high - 0x80) → BeyondScalar n) :
    Pending.Sound ⟨1, value, low, high⟩ := by
  refine .last hlow ?_
  intro b hfrom hto
  obtain ⟨hbeyond, hvalid⟩ := h (value * 64 + (b - 0x80)) (by omega) (by omega)
  exact hbeyond.trans_eq (toNat_ofNat hvalid).symm

lemma sound_two (hlow : 0x80 ≤ low)
    (h : ∀ n, (value * 64 + (low - 0x80)) * 64 ≤ n → n ≤ (value * 64 + (high - 0x80)) * 64 + 63 →
      BeyondScalar n) : Pending.Sound ⟨2, value, low, high⟩ := by
  refine .more hlow ?_
  intro b hfrom hto
  refine sound_one (Nat.le_refl _) ?_
  intro n hleast hmost
  exact h n (by omega) (by omega)

lemma sound_three (hlow : 0x80 ≤ low)
    (h : ∀ n, (value * 64 + (low - 0x80)) * 4096 ≤ n →
      n ≤ (value * 64 + (high - 0x80)) * 4096 + 4095 → BeyondScalar n) :
    Pending.Sound ⟨3, value, low, high⟩ := by
  refine .more hlow ?_
  intro b hfrom hto
  refine sound_two (Nat.le_refl _) ?_
  intro n hleast hmost
  exact h n (by omega) (by omega)

end Leads

lemma lead_of_beyond {b : Nat} (hb : 0x80 ≤ b) :
    (∃ p, lead b = .start p ∧ p.Sound) ∨ lead b = .malformed := by
  have hascii : ¬ b < 0x80 := Nat.not_lt.mpr hb
  unfold lead
  rw [if_neg hascii]
  split_ifs
  · exact .inr rfl
  · exact .inl ⟨_, rfl, sound_one (by decide) fun n hleast hmost => ⟨by omega, by omega⟩⟩
  · exact .inl ⟨_, rfl, sound_two (by decide) fun n hleast hmost => ⟨by omega, by omega⟩⟩
  · exact .inl ⟨_, rfl, sound_two (by decide) fun n hleast hmost => ⟨by omega, by omega⟩⟩
  · exact .inl ⟨_, rfl, sound_two (by decide) fun n hleast hmost => ⟨by omega, by omega⟩⟩
  · exact .inl ⟨_, rfl, sound_three (by decide) fun n hleast hmost => ⟨by omega, by omega⟩⟩
  · exact .inl ⟨_, rfl, sound_three (by decide) fun n hleast hmost => ⟨by omega, by omega⟩⟩
  · exact .inl ⟨_, rfl, sound_three (by decide) fun n hleast hmost => ⟨by omega, by omega⟩⟩
  · exact .inr rfl

lemma Pending.Sound.low_beyond {p : Pending} (h : p.Sound) : 0x80 ≤ p.low := by
  cases h with
  | last low_beyond done => exact low_beyond
  | more low_beyond next => exact low_beyond

lemma replacement_beyond : 0x80 ≤ replacement.toNat := by decide

/-- What a byte beyond ASCII does: it makes characters beyond ASCII or leaves a sequence pending, and
does not make more than one more than was pending. -/
structure Beyond (p : Option Pending) (r : List Char × Option Pending) : Prop where
  each : ∀ c ∈ r.1, 0x80 ≤ c.toNat
  sound : ∀ q ∈ r.2, q.Sound
  some_made : 1 ≤ r.1.length + pendingCount r.2
  most_made : r.1.length + pendingCount r.2 ≤ 1 + pendingCount p

lemma beyond_enter {b : Nat} (hb : 0x80 ≤ b) : Beyond none (enter b) := by
  unfold enter
  rcases lead_of_beyond hb with ⟨p, hlead, hsound⟩ | hlead
  · rw [hlead]
    constructor
    · simp
    · simpa using hsound
    · simp
    · simp
  · rw [hlead]
    constructor
    · exact List.forall_mem_singleton.mpr replacement_beyond
    · simp
    · simp
    · simp

lemma step_in {p : Pending} {b : Nat} (h : p.low ≤ b ∧ b ≤ p.high) :
    step (some p) b =
      if p.owed = 1 then ([Char.ofNat (p.value * 64 + (b - 0x80))], none)
      else ([], some ⟨p.owed - 1, p.value * 64 + (b - 0x80), 0x80, 0xBF⟩) := by
  simp only [step, if_pos h]

lemma step_out {p : Pending} {b : Nat} (h : ¬ (p.low ≤ b ∧ b ≤ p.high)) :
    step (some p) b = (replacement :: (enter b).1, (enter b).2) := by
  simp only [step, if_neg h]

lemma beyond_step {p : Option Pending} (hp : ∀ q ∈ p, q.Sound) {b : Nat} (hb : 0x80 ≤ b) :
    Beyond p (step p b) := by
  have henter := beyond_enter hb
  cases p with
  | none => exact henter
  | some p =>
    have hsound : p.Sound := hp p rfl
    by_cases hrange : p.low ≤ b ∧ b ≤ p.high
    · rw [step_in hrange]
      cases hsound with
      | last hlow hdone =>
        rw [if_pos rfl]
        constructor
        · simpa using hdone b hrange.1 hrange.2
        · simp
        · simp
        · simp
      | @more owed value low high hlow hnext =>
        have howed : ¬ owed + 2 = 1 := by omega
        rw [if_neg howed]
        constructor
        · simp
        · simpa using hnext b hrange.1 hrange.2
        · simp
        · simp
    · rw [step_out hrange]
      constructor
      · intro c hc
        rcases List.mem_cons.mp hc with rfl | hc
        · exact replacement_beyond
        · exact henter.each c hc
      · exact henter.sound
      · have hmade := henter.some_made
        simp only [List.length_cons]
        omega
      · have hmade := henter.most_made
        simp only [List.length_cons, pendingCount_some, pendingCount_none] at hmade ⊢
        omega

lemma decodeFrom_ascii {b : UInt8} (hb : beyond b = false) (rest : List UInt8) :
    decodeFrom none (b :: rest) = Char.ofNat b.toNat :: decodeFrom none rest := by
  have hlead : lead b.toNat = .char (Char.ofNat b.toNat) := by
    rw [lead, if_pos (not_beyond_iff.mp hb)]
  rw [decodeFrom_cons, step, enter, hlead]
  rfl

/-- An ASCII byte or the end cuts off what is pending, and is read afresh. -/
lemma decodeFrom_cut {p : Pending} (hp : p.Sound) {rest : List UInt8}
    (hrest : ∀ b ∈ rest.head?, beyond b = false) :
    decodeFrom (some p) rest = replacement :: decodeFrom none rest := by
  cases rest with
  | nil => rfl
  | cons b rest =>
    have hb : beyond b = false := hrest b rfl
    have hlow := hp.low_beyond
    have hout : ¬ (p.low ≤ b.toNat ∧ b.toNat ≤ p.high) := by
      have hlt := not_beyond_iff.mp hb
      omega
    rw [decodeFrom_cons, decodeFrom_cons, step_out hout]
    rfl

/-- Bytes beyond ASCII give characters beyond ASCII, up to the next ASCII byte or the end. -/
theorem decodeFrom_beyond {p : Option Pending} (hp : ∀ q ∈ p, q.Sound) {run rest : List UInt8}
    (hrun : ∀ b ∈ run, beyond b = true) (hrest : ∀ b ∈ rest.head?, beyond b = false) :
    ∃ text, decodeFrom p (run ++ rest) = text ++ decodeFrom none rest ∧
      (∀ c ∈ text, 0x80 ≤ c.toNat) ∧ text.length ≤ run.length + pendingCount p ∧
      (run ≠ [] ∨ p.isSome → 1 ≤ text.length) := by
  -- a sequence that is pending goes along and counts for one more character
  induction run generalizing p with
  | nil =>
    cases p with
    | none => exact ⟨[], rfl, by simp, by simp, by simp⟩
    | some p =>
      have heach : ∀ c ∈ [replacement], 0x80 ≤ c.toNat :=
        List.forall_mem_singleton.mpr replacement_beyond
      refine ⟨[replacement], decodeFrom_cut (hp p rfl) hrest, heach, ?_, by simp⟩
      simp
  | cons b run ih =>
    rw [List.forall_mem_cons] at hrun
    have hstep := beyond_step hp (beyond_iff.mp hrun.1)
    obtain ⟨text, hread, heach, hmost, hsome⟩ := ih hstep.sound hrun.2
    refine ⟨(step p b.toNat).1 ++ text, ?_, ?_, ?_, ?_⟩
    · rw [List.cons_append, decodeFrom_cons, hread, List.append_assoc]
    · intro c hc
      exact (List.mem_append.mp hc).elim (hstep.each c) (heach c)
    · have hmade := hstep.most_made
      rw [List.length_append, List.length_cons]
      omega
    · intro _
      have hmade := hstep.some_made
      rw [List.length_append]
      by_cases hpending : (step p b.toNat).2.isSome
      · have hlater := hsome (.inr hpending)
        omega
      · rw [pendingCount, if_neg hpending] at hmade
        omega

end Utf8

lemma keepsAscii_utf8 : KeepsAscii Utf8.decode := by
  constructor
  · rfl
  · intro side run rest hne hsame hturn
    cases side with
    | false =>
      refine ⟨asciiText run, .ascii hsame, ?_⟩
      clear hne hturn
      induction run with
      | nil => rfl
      | cons b run ih =>
        rw [List.forall_mem_cons] at hsame
        have hrest := ih hsame.2
        rw [Utf8.decode] at hrest ⊢
        rw [List.cons_append, Utf8.decodeFrom_ascii hsame.1, hrest]
        rfl
    | true =>
      obtain ⟨text, hread, heach, hmost, hsome⟩ :=
        Utf8.decodeFrom_beyond (p := none) (by simp) hsame hturn
      exact ⟨text, .beyond hsame (hsome (.inl hne)) hmost heach, hread⟩

/-- Three encodings read any bytes at all, and keep what is ASCII. -/
theorem keepsAscii_read {e : Encoding} (he : e ∈ [utf8, ascii, latin1]) :
    ∃ read, KeepsAscii read ∧ ∀ bytes, e.decode? bytes = some (read bytes) := by
  simp only [List.mem_cons, List.not_mem_nil, or_false] at he
  rcases he with rfl | rfl | rfl
  · exact ⟨_, keepsAscii_utf8, fun bytes => rfl⟩
  · exact ⟨_, keepsAscii_ascii, fun bytes => rfl⟩
  · exact ⟨_, keepsAscii_latin1, fun bytes => rfl⟩

end Munch.Encoding
