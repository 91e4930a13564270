/-!
# Character classes

The classes of the scanned language. All of them lie within ASCII: a letter or digit of another
script belongs to none.
-/

namespace Munch

inductive CharClass where
  | whitespace
  | digit
  | letter
  | identifierStart
  | identifierChar
  | operator
  | separator
  deriving DecidableEq, Repr

namespace CharClass

/-- The classes in the order in which listings name them. -/
def all : List CharClass :=
  [whitespace, digit, letter, identifierStart, identifierChar, operator, separator]

/-- The six blanks: space, tab, line feed, carriage return, vertical tab and form feed. -/
def blanks : List Char := [' ', '\t', '\n', '\r', '\x0b', '\x0c']

def operators : List Char := ['+', '-', '*', '/', '=', '<', '>', '!', '&', '|']

def separators : List Char := ['(', ')', '\x7b', '\x7d', '[', ']', ';', ',']

def holds : CharClass → Char → Bool
  | whitespace, c => blanks.contains c
  | digit, c => c.isDigit
  | letter, c => c.isAlpha
  | identifierStart, c => c.isAlpha || c == '_'
  | identifierChar, c => c.isAlpha || c == '_' || c.isDigit
  | operator, c => operators.contains c
  | separator, c => separators.contains c

/-- A text belongs to a class when it is one character of that class. -/
def holdsText (k : CharClass) (text : String) : Bool :=
  match text.toList with
  | [c] => k.holds c
  | _ => false

/-- The characters of a class in code point order. Looking below 128 is enough, as no class
reaches beyond ASCII (`lt_of_holds`). -/
def members (k : CharClass) : List Char :=
  ((List.range 128).map Char.ofNat).filter k.holds

theorem lt_of_isAlpha {c : Char} (h : c.isAlpha = true) : c.toNat < 128 := by
  unfold Char.isAlpha Char.isUpper Char.isLower at h
  simp only [Bool.or_eq_true, Bool.and_eq_true, decide_eq_true_eq, ge_iff_le,
    UInt32.le_iff_toNat_le] at h
  have hc : c.toNat = c.val.toNat := rfl
  have h90 : 'Z'.val.toNat = 90 := rfl
  have h122 : 'z'.val.toNat = 122 := rfl
  omega

theorem lt_of_isDigit {c : Char} (h : c.isDigit = true) : c.toNat < 128 := by
  unfold Char.isDigit at h
  simp only [Bool.and_eq_true, decide_eq_true_eq, ge_iff_le, UInt32.le_iff_toNat_le] at h
  have hc : c.toNat = c.val.toNat := rfl
  have h57 : '9'.val.toNat = 57 := rfl
  omega

theorem lt_of_mem {cs : List Char} (all : cs.all (·.toNat < 128) = true) {c : Char} (h : c ∈ cs) :
    c.toNat < 128 :=
  of_decide_eq_true (List.all_eq_true.mp all c h)

theorem lt_of_holds {k : CharClass} {c : Char} (h : k.holds c = true) : c.toNat < 128 := by
  cases k <;> simp only [holds, Bool.or_eq_true, beq_iff_eq, List.contains_iff_mem] at h
  case whitespace => exact lt_of_mem (by decide) h
  case digit => exact lt_of_isDigit h
  case letter => exact lt_of_isAlpha h
  case identifierStart =>
    rcases h with h | rfl
    · exact lt_of_isAlpha h
    · decide
  case identifierChar =>
    rcases h with (h | rfl) | h
    · exact lt_of_isAlpha h
    · decide
    · exact lt_of_isDigit h
  case operator => exact lt_of_mem (by decide) h
  case separator => exact lt_of_mem (by decide) h

end CharClass

end Munch
