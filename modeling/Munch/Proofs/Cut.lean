import Mathlib.Data.List.TakeWhile
import Mathlib.Data.Nat.Init
import Munch.Lexeme

/-!
# Cuts of a text into lexemes

A cut writes a text as blanks and lexemes in turns, where no lexeme could go on into what follows
it. `Cut` says what a cut is without regard to how one is found. Every text has a cut
(`exists_cut`) and only one (`Cut.unique`), and reading lexemes from the front finds it
(`Cut.read?_cons`).
-/

namespace Munch

/-- Nothing but blanks, perhaps nothing at all. -/
def Blank (text : List Char) : Prop := ∀ c ∈ text, CharClass.whitespace.holds c = true

namespace CharClass

lemma identifierChar_of_identifierStart {c : Char} (h : identifierStart.holds c = true) :
    identifierChar.holds c = true := by
  simp only [holds, Bool.or_eq_true, beq_iff_eq] at h ⊢
  exact Or.inl h

lemma identifierChar_of_digit {c : Char} (h : digit.holds c = true) :
    identifierChar.holds c = true := by
  simp only [holds, Bool.or_eq_true, beq_iff_eq] at h ⊢
  exact Or.inr h

lemma not_identifierChar_of_whitespace {c : Char} (h : whitespace.holds c = true) :
    identifierChar.holds c = false := by
  simp only [holds, blanks, List.contains_iff_mem, List.mem_cons, List.not_mem_nil, or_false] at h
  rcases h with rfl | rfl | rfl | rfl | rfl | rfl <;> decide

lemma not_whitespace_of_identifierChar {c : Char} (h : identifierChar.holds c = true) :
    whitespace.holds c = false := by
  by_contra hw
  rw [not_identifierChar_of_whitespace (by simpa using hw)] at h
  exact absurd h (by decide)

lemma not_isAlpha_of_isDigit {c : Char} (h : c.isDigit = true) : c.isAlpha = false := by
  unfold Char.isDigit at h
  unfold Char.isAlpha Char.isUpper Char.isLower
  simp only [Bool.and_eq_true, decide_eq_true_eq, ge_iff_le, UInt32.le_iff_toNat_le] at h
  simp only [Bool.or_eq_false_iff, not_and_or, Bool.and_eq_false_iff, decide_eq_false_iff_not,
    ge_iff_le, UInt32.le_iff_toNat_le]
  have h57 : '9'.val.toNat = 57 := rfl
  have h65 : 'A'.val.toNat = 65 := rfl
  have h97 : 'a'.val.toNat = 97 := rfl
  constructor
  · left
    omega
  · left
    omega

lemma not_identifierStart_of_digit {c : Char} (h : digit.holds c = true) :
    identifierStart.holds c = false := by
  simp only [holds, Bool.or_eq_false_iff, beq_eq_false_iff_ne] at h ⊢
  refine ⟨not_isAlpha_of_isDigit h, ?_⟩
  rintro rfl
  exact absurd h (by decide)

end CharClass

namespace Lexeme

/-- A word starts as one and goes on with characters of words, a number has only digits, and a
symbol is a character that neither begins one of these nor is a blank. -/
def WellFormed : Lexeme → Prop
  | word run =>
    (∃ c ∈ run.head?, CharClass.identifierStart.holds c = true) ∧
      ∀ c ∈ run, CharClass.identifierChar.holds c = true
  | number run => run ≠ [] ∧ ∀ c ∈ run, CharClass.digit.holds c = true
  | symbol c =>
    CharClass.whitespace.holds c = false ∧ CharClass.identifierStart.holds c = false ∧
      CharClass.digit.holds c = false

/-- Whether a lexeme would go on with a character that stands right after it. -/
def takes : Lexeme → Char → Bool
  | word _, c => CharClass.identifierChar.holds c
  | number _, c => CharClass.digit.holds c
  | symbol _, _ => false

/-- A lexeme would go on into a text that stands right after it. -/
def Joins (l : Lexeme) (text : List Char) : Prop := ∃ c ∈ text.head?, l.takes c = true

@[simp] lemma not_joins_nil (l : Lexeme) : ¬ l.Joins [] := by simp [Joins]

@[simp] lemma joins_cons (l : Lexeme) (c : Char) (text : List Char) :
    l.Joins (c :: text) ↔ l.takes c = true := by simp [Joins]

lemma joins_append_of_ne_nil (l : Lexeme) {a : List Char} (ha : a ≠ []) (b : List Char) :
    l.Joins (a ++ b) ↔ l.Joins a := by
  cases a with
  | nil => exact absurd rfl ha
  | cons c a => rw [List.cons_append, joins_cons, joins_cons]

lemma identifierChar_of_takes {l : Lexeme} {c : Char} (h : l.takes c = true) :
    CharClass.identifierChar.holds c = true := by
  cases l with
  | word run => exact h
  | number run => exact CharClass.identifierChar_of_digit h
  | symbol d => exact absurd h (by simp [takes])

lemma not_joins_of_blank_head (l : Lexeme) {c : Char} (hc : CharClass.whitespace.holds c = true)
    (text : List Char) : ¬ l.Joins (c :: text) := by
  rw [joins_cons]
  intro h
  have hi := identifierChar_of_takes h
  rw [CharClass.not_identifierChar_of_whitespace hc] at hi
  exact absurd hi (by decide)

lemma WellFormed.not_whitespace {l : Lexeme} (h : l.WellFormed) :
    ∀ c ∈ l.chars, CharClass.whitespace.holds c = false := by
  intro c hc
  cases l with
  | word run => exact CharClass.not_whitespace_of_identifierChar (h.2 c hc)
  | number run =>
    exact CharClass.not_whitespace_of_identifierChar
      (CharClass.identifierChar_of_digit (h.2 c hc))
  | symbol d =>
    rw [chars, List.mem_singleton] at hc
    rw [hc]
    exact h.1

lemma WellFormed.chars_ne_nil {l : Lexeme} (h : l.WellFormed) : l.chars ≠ [] := by
  cases l with
  | word run =>
    rintro rfl
    simp [WellFormed] at h
  | number run => exact h.1
  | symbol c => exact List.cons_ne_nil c []

end Lexeme

section Runs

variable {p : Char → Bool} {run rest : List Char}

lemma takeWhile_run (hrun : ∀ c ∈ run, p c = true) (hrest : ∀ c ∈ rest.head?, p c = false) :
    (run ++ rest).takeWhile p = run := by
  rw [List.takeWhile_append_of_pos hrun]
  cases rest with
  | nil => simp
  | cons c rest => simp [hrest c rfl]

lemma dropWhile_run (hrun : ∀ c ∈ run, p c = true) (hrest : ∀ c ∈ rest.head?, p c = false) :
    (run ++ rest).dropWhile p = rest := by
  rw [List.dropWhile_append_of_pos hrun]
  cases rest with
  | nil => rfl
  | cons c rest => simp [hrest c rfl]

lemma drop_length_takeWhile (p : Char → Bool) (text : List Char) :
    text.drop (text.takeWhile p).length = text.dropWhile p := by
  have h := List.takeWhile_append_dropWhile (p := p) (l := text)
  exact (congrArg (List.drop (text.takeWhile p).length) h).symm.trans List.drop_left

lemma head?_dropWhile_false (p : Char → Bool) (text : List Char) :
    ∀ c ∈ (text.dropWhile p).head?, p c = false := by
  intro c hc
  have h := List.head?_dropWhile_not p text
  rwa [Option.mem_def.mp hc] at h

end Runs

namespace Lexeme

/-- A lexeme that cannot go on is what is read at the front of a text. -/
theorem read?_chars_append {l : Lexeme} {rest : List Char} (hl : l.WellFormed)
    (hj : ¬ l.Joins rest) : read? (l.chars ++ rest) = some l := by
  have stop : ∀ c ∈ rest.head?, l.takes c = false := by
    intro c hc
    rw [← Bool.not_eq_true]
    exact fun h => hj ⟨c, hc, h⟩
  cases l with
  | word run =>
    obtain ⟨⟨c, hc, hstart⟩, hrun⟩ := hl
    cases run with
    | nil => simp at hc
    | cons d run =>
      obtain rfl : d = c := by simpa using hc
      rw [List.forall_mem_cons] at hrun
      have htake := takeWhile_run hrun.2 stop
      simp only [chars, List.cons_append, read?, hstart, if_true, htake]
  | number run =>
    obtain ⟨hne, hrun⟩ := hl
    cases run with
    | nil => exact absurd rfl hne
    | cons d run =>
      rw [List.forall_mem_cons] at hrun
      have htake := takeWhile_run hrun.2 stop
      simp only [chars, List.cons_append, read?,
        CharClass.not_identifierStart_of_digit hrun.1, hrun.1, htake]
      rfl
  | symbol c =>
    obtain ⟨-, hstart, hdigit⟩ := hl
    simp only [chars, List.cons_append, read?, hstart, hdigit]
    rfl

/-- What is read at the front of a text is a lexeme and cannot go on, if the text does not begin
with a blank. -/
theorem wellFormed_of_read? {text : List Char} {l : Lexeme} (h : read? text = some l)
    (front : ∀ c ∈ text.head?, CharClass.whitespace.holds c = false) :
    l.WellFormed ∧ ¬ l.Joins (text.drop l.chars.length) := by
  have stop (p : Char → Bool) (rest : List Char) :
      ¬ ∃ c ∈ (rest.drop (rest.takeWhile p).length).head?, p c = true := by
    rw [drop_length_takeWhile]
    rintro ⟨c, hc, hp⟩
    rw [head?_dropWhile_false p rest c hc] at hp
    exact absurd hp (by decide)
  cases text with
  | nil => simp at h
  | cons c rest =>
    have hc : CharClass.whitespace.holds c = false := front c rfl
    by_cases hstart : CharClass.identifierStart.holds c = true
    · simp only [read?, hstart, if_true, Option.some_inj] at h
      subst h
      refine ⟨⟨⟨c, rfl, hstart⟩, ?_⟩, stop _ rest⟩
      rw [List.forall_mem_cons]
      exact ⟨CharClass.identifierChar_of_identifierStart hstart,
        fun d hd => List.mem_takeWhile_imp hd⟩
    · rw [Bool.not_eq_true] at hstart
      by_cases hdigit : CharClass.digit.holds c = true
      · simp only [read?, hstart, hdigit, if_true, Bool.false_eq_true, if_false,
          Option.some_inj] at h
        subst h
        refine ⟨⟨List.cons_ne_nil _ _, ?_⟩, stop _ rest⟩
        rw [List.forall_mem_cons]
        exact ⟨hdigit, fun d hd => List.mem_takeWhile_imp hd⟩
      · rw [Bool.not_eq_true] at hdigit
        simp only [read?, hstart, hdigit, Bool.false_eq_true, if_false, Option.some_inj] at h
        subst h
        exact ⟨⟨hc, hstart, hdigit⟩, by simp [Joins, takes]⟩

end Lexeme

/-- Blanks, perhaps none, and the lexeme after them. -/
structure Piece where
  blanks : List Char
  lexeme : Lexeme
  deriving DecidableEq, Repr

def Piece.chars (p : Piece) : List Char := p.blanks ++ p.lexeme.chars

/-- A text is cut into pieces and the blanks after the last of them. -/
inductive Cut : List Char → List Piece → List Char → Prop
  | blanks {w : List Char} (hw : Blank w) : Cut w [] w
  | piece {w rest tail : List Char} {l : Lexeme} {ps : List Piece} (hw : Blank w)
      (hl : l.WellFormed) (hj : ¬ l.Joins rest) (more : Cut rest ps tail) :
      Cut (w ++ (l.chars ++ rest)) (⟨w, l⟩ :: ps) tail

section Reading

variable {w rest : List Char} {l : Lexeme}

lemma not_whitespace_head (hl : l.WellFormed) :
    ∀ c ∈ (l.chars ++ rest).head?, CharClass.whitespace.holds c = false := by
  intro c hc
  cases hchars : l.chars with
  | nil => exact absurd hchars hl.chars_ne_nil
  | cons d run =>
    rw [hchars, List.cons_append, List.head?_cons, Option.mem_some] at hc
    exact hl.not_whitespace c (by rw [hchars, hc]; exact List.mem_cons_self)

lemma dropWhile_blank (hw : Blank w) (hl : l.WellFormed) :
    (w ++ (l.chars ++ rest)).dropWhile CharClass.whitespace.holds = l.chars ++ rest :=
  dropWhile_run hw (not_whitespace_head hl)

lemma takeWhile_blank (hw : Blank w) (hl : l.WellFormed) :
    (w ++ (l.chars ++ rest)).takeWhile CharClass.whitespace.holds = w :=
  takeWhile_run hw (not_whitespace_head hl)

end Reading

namespace Cut

/-- Nothing is left out of a cut and nothing is added. -/
theorem text_eq {text tail : List Char} {ps : List Piece} (h : Cut text ps tail) :
    text = ps.flatMap Piece.chars ++ tail := by
  induction h with
  | blanks hw => rfl
  | piece hw hl hj more ih =>
    rw [List.flatMap_cons, Piece.chars, List.append_assoc, List.append_assoc, ← ih]

lemma of_nil {text tail : List Char} (h : Cut text [] tail) : Blank text ∧ text = tail := by
  cases h with
  | blanks hw => exact ⟨hw, rfl⟩

lemma of_cons {text tail : List Char} {p : Piece} {ps : List Piece} (h : Cut text (p :: ps) tail) :
    Blank p.blanks ∧ p.lexeme.WellFormed ∧
      ∃ rest, ¬ p.lexeme.Joins rest ∧ text = p.blanks ++ (p.lexeme.chars ++ rest) ∧
        Cut rest ps tail := by
  cases h with
  | piece hw hl hj more => exact ⟨hw, hl, _, hj, rfl, more⟩

lemma wellFormed_of_mem {text tail : List Char} {ps : List Piece} (h : Cut text ps tail) :
    ∀ p ∈ ps, p.lexeme.WellFormed := by
  induction h with
  | blanks hw => simp
  | piece hw hl hj more ih =>
    intro p hp
    rcases List.mem_cons.mp hp with rfl | hp
    · exact hl
    · exact ih p hp

theorem read?_nil {text tail : List Char} (h : Cut text [] tail) :
    Lexeme.read? (text.dropWhile CharClass.whitespace.holds) = none := by
  rw [List.dropWhile_eq_nil_iff.mpr h.of_nil.1, Lexeme.read?_nil]

theorem read?_cons {text tail : List Char} {p : Piece} {ps : List Piece}
    (h : Cut text (p :: ps) tail) :
    text.takeWhile CharClass.whitespace.holds = p.blanks ∧
      Lexeme.read? (text.dropWhile CharClass.whitespace.holds) = some p.lexeme := by
  obtain ⟨hw, hl, rest, hj, rfl, -⟩ := h.of_cons
  rw [takeWhile_blank hw hl, dropWhile_blank hw hl]
  exact ⟨rfl, Lexeme.read?_chars_append hl hj⟩

theorem drop_cons {text tail : List Char} {p : Piece} {ps : List Piece}
    (h : Cut text (p :: ps) tail) :
    text.take p.chars.length = p.chars ∧ Cut (text.drop p.chars.length) ps tail := by
  obtain ⟨-, -, rest, -, rfl, more⟩ := h.of_cons
  rw [← List.append_assoc, ← Piece.chars, List.take_left, List.drop_left]
  exact ⟨rfl, more⟩

lemma length_chars_le {text tail : List Char} {p : Piece} {ps : List Piece} (h : Cut text (p :: ps) tail) :
    p.chars.length ≤ text.length := by
  have htake := congrArg List.length h.drop_cons.1
  rw [List.length_take] at htake
  omega

theorem unique {text tail tail' : List Char} {ps ps' : List Piece} (h : Cut text ps tail)
    (h' : Cut text ps' tail') : ps = ps' ∧ tail = tail' := by
  induction ps generalizing text ps' with
  | nil =>
    cases ps' with
    | nil => exact ⟨rfl, h.of_nil.2.symm.trans h'.of_nil.2⟩
    | cons p' ps' => exact absurd (h.read?_nil.symm.trans h'.read?_cons.2) (by simp)
  | cons p ps ih =>
    cases ps' with
    | nil => exact absurd (h'.read?_nil.symm.trans h.read?_cons.2) (by simp)
    | cons p' ps' =>
      -- both first pieces are what is read at the front, so the rest has two cuts as well
      have hw : p.blanks = p'.blanks := h.read?_cons.1.symm.trans h'.read?_cons.1
      have hl : p.lexeme = p'.lexeme :=
        Option.some.inj (h.read?_cons.2.symm.trans h'.read?_cons.2)
      have hp : p = p' := by
        cases p
        cases p'
        exact congrArg₂ Piece.mk hw hl
      subst hp
      obtain ⟨rfl, rfl⟩ := ih h.drop_cons.2 h'.drop_cons.2
      exact ⟨rfl, rfl⟩

end Cut

theorem exists_cut (text : List Char) : ∃ ps tail, Cut text ps tail := by
  induction hn : text.length using Nat.strong_induction_on generalizing text with
  | _ n ih =>
    let w := text.takeWhile CharClass.whitespace.holds
    let front := text.dropWhile CharClass.whitespace.holds
    have hw : Blank w := fun c hc => List.mem_takeWhile_imp hc
    have htext : w ++ front = text := List.takeWhile_append_dropWhile
    cases hread : Lexeme.read? front with
    | none =>
      have hfront : front = [] := Lexeme.read?_eq_none_iff.mp hread
      rw [hfront, List.append_nil] at htext
      exact ⟨[], text, htext ▸ .blanks hw⟩
    | some l =>
      obtain ⟨hl, hj⟩ := Lexeme.wellFormed_of_read? hread (head?_dropWhile_false _ text)
      have hchars : l.chars ++ front.drop l.chars.length = front :=
        Lexeme.chars_append_drop_of_read? hread
      have hshort : (front.drop l.chars.length).length < n := by
        have hpos := List.length_pos_iff.mpr hl.chars_ne_nil
        have hlen := congrArg List.length htext
        have hlen' := congrArg List.length hchars
        simp only [List.length_append] at hlen hlen'
        omega
      obtain ⟨ps, tail, more⟩ := ih _ hshort _ rfl
      refine ⟨⟨w, l⟩ :: ps, tail, ?_⟩
      have h := Cut.piece hw hl hj more
      rwa [hchars, htext] at h

end Munch
