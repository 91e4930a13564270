import Munch.CharClass
import Munch.Config
import Munch.Diagnostic
import Munch.Keyword
import Munch.Token

/-!
# Lexemes

A text is cut into lexemes without regard to any configuration: a word or a number runs as far as
its characters go, and everything else stands alone. What a configuration decides is only how a
lexeme is kept and named.
-/

namespace Munch

/-- A longest run of characters that belong together, or a single character. -/
inductive Lexeme where
  | word (run : List Char)
  | number (run : List Char)
  | symbol (c : Char)
  deriving DecidableEq, Repr

namespace Lexeme

def chars : Lexeme → List Char
  | word run => run
  | number run => run
  | symbol c => [c]

/-- The lexeme at the front of a text. A digit does not start a word but may go on with it. -/
def read? : List Char → Option Lexeme
  | [] => none
  | c :: rest =>
    if CharClass.identifierStart.holds c then
      some (word (c :: rest.takeWhile CharClass.identifierChar.holds))
    else if CharClass.digit.holds c then
      some (number (c :: rest.takeWhile CharClass.digit.holds))
    else some (symbol c)

/-- What a configuration keeps of a lexeme: its first characters up to the limit. -/
def kept (config : Config) (l : Lexeme) : String := String.ofList (l.chars.take config.limit)

def truncated (config : Config) (l : Lexeme) : Bool := config.limit < l.chars.length

/-- The kind of token that a lexeme gives. A word is a keyword by its full text only. -/
def kind (config : Config) : Lexeme → TokenKind
  | word run =>
    if run.length ≤ config.limit && isKeyword (String.ofList run) then .keyword else .identifier
  | number _ => .number
  | symbol c =>
    if CharClass.operator.holds c then .operator
    else if config.separates && CharClass.separator.holds c then .separator
    else .invalid

def token (config : Config) (location : Location) (l : Lexeme) : Token :=
  ⟨l.kind config, l.kept config, location⟩

/-- What there is to say about a lexeme that begins at a location. -/
def diagnostic? (config : Config) (location : Location) (l : Lexeme) : Option Diagnostic :=
  if l.truncated config then some (.lexemeTruncated l.chars.length config.limit location)
  else
    match l with
    | symbol c => if l.kind config = .invalid then some (.invalidCharacter c location) else none
    | _ => none

@[simp] theorem read?_nil : read? [] = none := rfl

theorem chars_ne_nil_of_read? {text : List Char} {l : Lexeme} (h : read? text = some l) :
    l.chars ≠ [] := by
  cases text with
  | nil => simp at h
  | cons c rest =>
    simp only [read?] at h
    split at h
    · obtain rfl := Option.some.inj h; simp [chars]
    · split at h <;> obtain rfl := Option.some.inj h <;> simp [chars]

theorem chars_append_drop_of_read? {text : List Char} {l : Lexeme} (h : read? text = some l) :
    l.chars ++ text.drop l.chars.length = text := by
  have run (p : Char → Bool) (rest : List Char) :
      rest.takeWhile p ++ rest.drop (rest.takeWhile p).length = rest := by
    have h := List.takeWhile_append_dropWhile (p := p) (l := rest)
    rw [(congrArg (List.drop (rest.takeWhile p).length) h).symm.trans List.drop_left, h]
  cases text with
  | nil => simp at h
  | cons c rest =>
    simp only [read?] at h
    split at h
    · obtain rfl := Option.some.inj h; simp [chars, run]
    · split at h <;> obtain rfl := Option.some.inj h <;> simp [chars, run]

theorem read?_eq_none_iff {text : List Char} : read? text = none ↔ text = [] := by
  cases text with
  | nil => simp
  | cons c rest => simp only [read?]; split <;> (try split) <;> simp

theorem kind_ne_eof (config : Config) (l : Lexeme) : l.kind config ≠ .eof := by
  cases l <;> simp only [kind] <;> (try split) <;> (try split) <;> simp

section Said

variable {config : Config} {location : Location} {l : Lexeme}

theorem length_kept (config : Config) (l : Lexeme) :
    (l.kept config).length = min config.limit l.chars.length := by
  rw [kept, ← String.length_toList, String.toList_ofList, List.length_take]

theorem kind_word (config : Config) (run : List Char) :
    (word run).kind config =
      if run.length ≤ config.limit ∧ isKeyword (String.ofList run) = true then .keyword
      else .identifier := by
  simp only [kind, Bool.and_eq_true, decide_eq_true_eq]

theorem eq_symbol_of_invalid (h : l.kind config = .invalid) : ∃ x, l = symbol x := by
  cases l with
  | word run =>
    rw [kind_word] at h
    split at h <;> simp at h
  | number run => simp [kind] at h
  | symbol x => exact ⟨x, rfl⟩

/-- A single character is never cut, as the limit is positive. -/
theorem length_symbol_le (config : Config) (x : Char) : (symbol x).chars.length ≤ config.limit :=
  config.limit_pos

theorem kind_of_long (h : config.limit < l.chars.length) :
    l.kind config = .identifier ∨ l.kind config = .number := by
  cases l with
  | word run =>
    left
    rw [kind_word, if_neg fun hkeyword => Nat.not_le_of_lt h hkeyword.1]
  | number run => exact Or.inr rfl
  | symbol x => exact absurd (length_symbol_le config x) (Nat.not_le_of_lt h)

theorem truncated_iff : l.truncated config = true ↔ config.limit < l.chars.length := by
  rw [truncated, decide_eq_true_iff]

theorem diagnostic?_of_long (h : config.limit < l.chars.length) :
    l.diagnostic? config location =
      some (.lexemeTruncated l.chars.length config.limit location) := by
  unfold diagnostic?
  exact if_pos (truncated_iff.mpr h)

theorem diagnostic?_of_invalid {x : Char} (h : (symbol x).kind config = .invalid) :
    (symbol x).diagnostic? config location = some (.invalidCharacter x location) := by
  have hwhole : ¬ (symbol x).truncated config = true := by
    rw [truncated_iff]
    exact Nat.not_lt.mpr (length_symbol_le config x)
  unfold diagnostic?
  rw [if_neg hwhole]
  exact if_pos h

theorem diagnostic?_of_valid (hwhole : l.chars.length ≤ config.limit)
    (hvalid : l.kind config ≠ .invalid) : l.diagnostic? config location = none := by
  have hshort : ¬ l.truncated config = true := by
    rw [truncated_iff]
    exact Nat.not_lt.mpr hwhole
  unfold diagnostic?
  rw [if_neg hshort]
  cases l with
  | symbol x => exact if_neg hvalid
  | _ => rfl

end Said

end Lexeme

end Munch
