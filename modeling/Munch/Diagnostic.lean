import Munch.Location

/-!
# Diagnostics

What a scan has to say about a text. A diagnostic never stops a scan.
-/

namespace Munch

structure Diagnostic where
  code : String
  message : String
  location : Location
  severity : String := "error"
  deriving DecidableEq, Repr

/-- A text of this length was given for a single character. -/
structure NotOneCharacter where
  length : Nat
  deriving DecidableEq, Repr

def NotOneCharacter.message (e : NotOneCharacter) : String :=
  "ord() expected a character, but string of length " ++ toString e.length ++ " found"

namespace Diagnostic

def codes : List (String × String) :=
  [("L001", "Invalid character"), ("L002", "Lexeme truncated")]

/-- A character is shown quoted when it is printable, and by its code point otherwise. -/
def showChar (c : Char) : String :=
  if Text.isPrintable c then Text.quote (String.singleton c) else Text.codePointLabel c

def invalidCharacter (c : Char) (location : Location) : Diagnostic :=
  { code := "L001", message := "invalid character " ++ showChar c, location, severity := "error" }

/-- A lexeme of `consumed` characters was cut to `limit` of them. -/
def lexemeTruncated (consumed limit : Int) (location : Location) : Diagnostic :=
  { code := "L002"
    message := "lexeme of " ++ toString consumed ++ " characters truncated to " ++ toString limit
    location
    severity := "warning" }

/-- Asked about a text, `invalidCharacter` takes any text whose characters are all printable.
Otherwise it needs the code point of a single character. -/
def invalidText (text : String) (location : Location) : Except NotOneCharacter Diagnostic :=
  if text.toList.all Text.isPrintable then
    .ok { code := "L001", message := "invalid character " ++ Text.quote text, location }
  else
    match text.toList with
    | [c] => .ok (invalidCharacter c location)
    | cs => .error ⟨cs.length⟩

def render (d : Diagnostic) : String :=
  d.location.render ++ ": " ++ d.severity ++ " " ++ d.code ++ ": " ++ d.message

theorem invalidText_singleton (c : Char) (location : Location) :
    invalidText (String.singleton c) location = .ok (invalidCharacter c location) := by
  by_cases h : Text.isPrintable c <;> simp [invalidText, invalidCharacter, showChar, h]

end Diagnostic

end Munch
