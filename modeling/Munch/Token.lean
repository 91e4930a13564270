import Munch.Location

/-!
# Tokens
-/

namespace Munch

/-- What a token stands for. No scanner emits `string`: it is reserved. -/
inductive TokenKind where
  | identifier
  | number
  | string
  | keyword
  | operator
  | separator
  | eof
  | invalid
  deriving DecidableEq, Repr

namespace TokenKind

def all : List TokenKind :=
  [identifier, number, string, keyword, operator, separator, eof, invalid]

def name : TokenKind → String
  | identifier => "IDENTIFIER"
  | number => "NUMBER"
  | string => "STRING"
  | keyword => "KEYWORD"
  | operator => "OPERATOR"
  | separator => "SEPARATOR"
  | eof => "EOF"
  | invalid => "INVALID"

/-- The number of a kind: its place in `all`, from 1. -/
def value (k : TokenKind) : Nat := all.idxOf k + 1

/-- The kind with a given name; the match is exact. -/
def ofName? (s : String) : Option TokenKind := all.find? (·.name == s)

def unknownName (s : String) : String := Text.quote s

@[simp] theorem ofName?_name (k : TokenKind) : ofName? k.name = some k := by
  cases k <;> decide

theorem name_injective {a b : TokenKind} (h : a.name = b.name) : a = b := by
  have := ofName?_name a
  rw [h, ofName?_name, Option.some_inj] at this
  exact this.symm

end TokenKind

structure Token where
  kind : TokenKind
  text : String
  location : Location
  deriving DecidableEq, Repr

namespace Token

abbrev position (t : Token) : Position := t.location.toPosition

/-- Two tokens are the same apart from the source they come from. -/
def agrees (a b : Token) : Bool :=
  a.kind == b.kind && a.text == b.text && a.position == b.position

def isEof (t : Token) : Bool := t.kind == .eof

def isInvalid (t : Token) : Bool := t.kind == .invalid

/-- A text of more than twenty characters is shown by its first seventeen. -/
def excerpt (text : String) : String :=
  if 20 < text.length then String.ofList (text.toList.take 17) ++ "..." else text

def render (t : Token) : String :=
  "Token(" ++ t.kind.name ++ ", " ++ Text.quote (excerpt t.text) ++ ", " ++ t.position.render ++ ")"

/-- Its line in a listing: position, kind and quoted text, with a tab between them. -/
def listing (t : Token) : String :=
  t.position.render ++ "\t" ++ t.kind.name ++ "\t" ++ Text.quote t.text

theorem agrees_iff {a b : Token} :
    a.agrees b = true ↔ a.kind = b.kind ∧ a.text = b.text ∧ a.position = b.position := by
  simp [agrees, and_assoc]

end Token

end Munch
