/-!
# Positions

Lines count from 1 and columns from 0, in characters. Only a line feed starts a line: a carriage
return, a tab and a character of any plane each take one column. `after` moves a position over a
text, and `after_append` says that this can be done piece by piece.
-/

namespace Munch

/-- A place in a text. The counters are integers, since a token or diagnostic may be written down
for any place at all. -/
structure Position where
  line : Int
  column : Int
  deriving DecidableEq, Repr

namespace Position

def start : Position := ⟨1, 0⟩

def next (p : Position) (c : Char) : Position :=
  if c = '\n' then ⟨p.line + 1, 0⟩ else ⟨p.line, p.column + 1⟩

/-- The place right after a text that begins at `p`. -/
def after (p : Position) (text : List Char) : Position := text.foldl next p

/-- The place, counted from the start of the whole, of something at `p` in a part that begins at
`base`. Only the first line of the part is moved sideways. -/
def shift (base p : Position) : Position :=
  ⟨base.line + p.line - 1, if p.line = 1 then base.column + p.column else p.column⟩

def render (p : Position) : String := toString p.line ++ ":" ++ toString p.column

@[simp] theorem after_nil (p : Position) : p.after [] = p := rfl

@[simp] theorem after_cons (p : Position) (c : Char) (text : List Char) :
    p.after (c :: text) = (p.next c).after text := rfl

@[simp] theorem after_append (p : Position) (a b : List Char) :
    p.after (a ++ b) = (p.after a).after b := by
  simp [after]

@[simp] theorem shift_start (base : Position) : base.shift start = base := by
  cases base; simp [shift, start]

end Position

end Munch
