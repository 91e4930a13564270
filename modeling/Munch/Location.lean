import Munch.Position
import Munch.Text.Given
import Munch.Text.Quoted

/-!
# Locations

A position in a source. A source without a name, or with an empty one, is anonymous.
-/

namespace Munch

structure Location extends Position where
  source : Option String := none
  deriving DecidableEq, Repr

/-- The position, with the source's name in front if it has one. -/
def Location.render (l : Location) : String :=
  match Text.given? l.source with
  | some name => name ++ ":" ++ l.toPosition.render
  | none => l.toPosition.render

def Location.describe (l : Location) : String :=
  "SourceLocation(line=" ++ toString l.line ++ ", column=" ++ toString l.column ++ ", source_file="
    ++ l.source.elim "None" Text.quote ++ ")"

def Position.of (p : Position) (source : Option String) : Location := { p with source }

@[simp] theorem Position.toPosition_of (p : Position) (source : Option String) :
    (p.of source).toPosition = p := rfl

@[simp] theorem Position.source_of (p : Position) (source : Option String) :
    (p.of source).source = source := rfl

end Munch
