import Munch.Diagnostic

/-!
# Log records

Records are written by three channels: one tells of sources that are opened and closed, the other
two repeat diagnostics as they are made. All are of the level `DEBUG`.
-/

namespace Munch

inductive Channel where
  | session
  | scanner
  | symbols
  deriving DecidableEq, Repr

def Channel.root : String := "minilex"

/-- The full name of a channel: a name below the root stands as it is, and any other is put below
the root. -/
def Channel.qualify (name : String) : String :=
  if name = root ∨ (root ++ ".").toList.isPrefixOf name.toList then name else root ++ "." ++ name

def Channel.name : Channel → String
  | session => qualify "session"
  | scanner => qualify "lexer.core"
  | symbols => qualify "lexer.scanners.symbol"

structure Record where
  channel : Channel
  message : String
  deriving DecidableEq, Repr

namespace Record

def render (r : Record) : String := r.channel.name ++ ": DEBUG: " ++ r.message

def opened (path : String) : Record := ⟨.session, "Opened source " ++ path⟩

/-- A source was closed; one without a name is called `<string>`. -/
def closed (source : Option String) : Record :=
  ⟨.session, "Closed source " ++ (Text.given? source).getD "<string>"⟩

def ofDiagnostic (d : Diagnostic) : Record :=
  ⟨if d.code = "L001" then .symbols else .scanner, d.render⟩

theorem render_lexemeTruncated (consumed limit : Int) (location : Location) :
    (ofDiagnostic (.lexemeTruncated consumed limit location)).render =
      "minilex.lexer.core: DEBUG: " ++ (Diagnostic.lexemeTruncated consumed limit location).render := by
  have hcode : (Diagnostic.lexemeTruncated consumed limit location).code ≠ "L001" := by
    change "L002" ≠ "L001"
    decide
  have hname : Channel.scanner.name ++ ": DEBUG: " = "minilex.lexer.core: DEBUG: " := by decide
  rw [ofDiagnostic, if_neg hcode, render, hname]

theorem render_invalidCharacter (x : Char) (location : Location) :
    (ofDiagnostic (.invalidCharacter x location)).render =
      "minilex.lexer.scanners.symbol: DEBUG: " ++ (Diagnostic.invalidCharacter x location).render := by
  have hcode : (Diagnostic.invalidCharacter x location).code = "L001" := rfl
  have hname : Channel.symbols.name ++ ": DEBUG: " = "minilex.lexer.scanners.symbol: DEBUG: " := by
    decide
  rw [ofDiagnostic, if_pos hcode, render, hname]

end Record

end Munch
