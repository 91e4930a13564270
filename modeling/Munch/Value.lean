import Munch.Decimal.Shortest
import Munch.Numeral
import Munch.Text.Quoted

/-!
# Values of settings

A setting may be given any value of a data file. What a value is worth as a switch, how it is
written and what its type is called are defined here.
-/

namespace Munch

/-- A value as a data file gives it. -/
inductive Value where
  | null
  | bool (b : Bool)
  | int (n : Int)
  | float (x : Float)
  | text (s : String)
  | list (items : List Value)
  | dict (entries : List (String × Value))
  deriving Inhabited

namespace Value

/-- A value counts as true unless it is null, false, zero or empty. -/
def truth : Value → Bool
  | null => false
  | bool b => b
  | int n => n != 0
  | float x => !(x == 0)
  | text s => s != ""
  | list items => !items.isEmpty
  | dict entries => !entries.isEmpty

def typeName : Value → String
  | null => "NoneType"
  | bool _ => "bool"
  | int _ => "int"
  | float _ => "float"
  | text _ => "str"
  | list _ => "list"
  | dict _ => "dict"

/-- Numbers compare by value, and a truth value is the number 0 or 1. -/
def isZero : Value → Bool
  | bool b => !b
  | int n => n == 0
  | float x => x == 0
  | _ => false

mutual

def render : Value → String
  | null => "None"
  | bool true => "True"
  | bool false => "False"
  | int n => toString n
  | float x => Decimal.renderFloat x
  | text s => Text.quote s
  | list items => "[" ++ ", ".intercalate (renderItems items) ++ "]"
  | dict entries => "\x7b" ++ ", ".intercalate (renderEntries entries) ++ "\x7d"

def renderItems : List Value → List String
  | [] => []
  | v :: rest => render v :: renderItems rest

def renderEntries : List (String × Value) → List String
  | [] => []
  | (key, v) :: rest => (Text.quote key ++ ": " ++ render v) :: renderEntries rest

end

mutual

/-- An integer of more digits than are read is not written either, wherever it stands in a value. -/
def writable : Value → Bool
  | int n => (Nat.toDigits 10 n.natAbs).length ≤ Numeral.maxDigits
  | list items => writableItems items
  | dict entries => writableEntries entries
  | _ => true

def writableItems : List Value → Bool
  | [] => true
  | v :: rest => writable v && writableItems rest

def writableEntries : List (String × Value) → Bool
  | [] => true
  | (_, v) :: rest => writable v && writableEntries rest

end

end Value

end Munch
