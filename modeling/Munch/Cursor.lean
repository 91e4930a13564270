import Munch.CharClass
import Munch.Position
import Munch.Text.Quoted

/-!
# Cursors

A cursor reads a text forwards, one character at a time, and knows the position of the next
character. The end of input is the empty rest: no character stands for it. `consume` moves over
any number of characters at once, and `advance` over one.
-/

namespace Munch

structure Cursor where
  /-- What has not been consumed. Closing a cursor releases it. -/
  rest : List Char
  position : Position := .start
  offset : Nat := 0
  closed : Bool := false
  source : Option String := none
  deriving DecidableEq, Repr

/-- What is done to the stream that a cursor reads from. -/
inductive StreamEvent where
  | opened
  | released
  deriving DecidableEq, Repr

namespace Cursor

def ofText (text : String) (source : Option String := none) : Cursor :=
  { rest := text.toList, source }

def lookahead (c : Cursor) : Option Char := c.rest.head?

def exhausted (c : Cursor) : Bool := c.rest.isEmpty

/-- Moves over the next `n` characters, or over all that are left. -/
def consume (c : Cursor) (n : Nat) : Cursor :=
  let taken := c.rest.take n
  { c with
    rest := c.rest.drop n
    position := c.position.after taken
    offset := c.offset + taken.length }

/-- Moves over the longest run of characters of a class. -/
def skip (c : Cursor) (k : CharClass) : Cursor := c.consume (c.rest.takeWhile k.holds).length

def advance (c : Cursor) : Option Char × Cursor := (c.lookahead, c.consume 1)

/-- Gives up what is left. The position stays where it is. -/
def close (c : Cursor) : Cursor := { c with rest := [], closed := true }

/-- What closing does to the stream. A cursor that is closed has released it already. -/
def closing (c : Cursor) : List StreamEvent := if c.closed then [] else [.released]

def render (c : Cursor) : String :=
  let state :=
    match c.lookahead with
    | some char => Text.quote (String.singleton char)
    | none => "exhausted"
  "Cursor(" ++ state ++ ", " ++ c.position.render ++ ")"

@[simp] theorem rest_consume (c : Cursor) (n : Nat) : (c.consume n).rest = c.rest.drop n := rfl

@[simp] theorem position_consume (c : Cursor) (n : Nat) :
    (c.consume n).position = c.position.after (c.rest.take n) := rfl

@[simp] theorem source_consume (c : Cursor) (n : Nat) : (c.consume n).source = c.source := rfl

@[simp] theorem closed_consume (c : Cursor) (n : Nat) : (c.consume n).closed = c.closed := rfl

@[simp] theorem offset_consume (c : Cursor) (n : Nat) :
    (c.consume n).offset = c.offset + min n c.rest.length := by
  simp [consume]

theorem consume_consume (c : Cursor) (m n : Nat) : (c.consume m).consume n = c.consume (m + n) := by
  have h : c.rest.take (m + n) = c.rest.take m ++ (c.rest.drop m).take n := List.take_add
  simp [consume, h, Nat.add_assoc]

@[simp] theorem source_skip (c : Cursor) (k : CharClass) : (c.skip k).source = c.source := rfl

@[simp] theorem closed_skip (c : Cursor) (k : CharClass) : (c.skip k).closed = c.closed := rfl

theorem rest_skip (c : Cursor) (k : CharClass) : (c.skip k).rest = c.rest.dropWhile k.holds := by
  have h : c.rest.takeWhile k.holds ++ c.rest.dropWhile k.holds = c.rest :=
    List.takeWhile_append_dropWhile
  exact (congrArg (List.drop (c.rest.takeWhile k.holds).length) h).symm.trans List.drop_left

@[simp] theorem close_close (c : Cursor) : c.close.close = c.close := rfl

end Cursor

end Munch
