import Munch.Text.Hex
import Munch.Text.Printable

/-!
# Quoted text

A text is written between quotes, with a backslash before whatever could be misread. The single
quote is used unless the text holds one and no double quote, so that most texts need no escaped
quote at all.
-/

namespace Munch.Text

def quoteMark (text : List Char) : Char :=
  if text.contains '\'' && !text.contains '"' then '"' else '\''

/-- The written form of one character between two marks. What is not printable is written as its
code point, in two, four or eight hexadecimal digits: the fewest of these that it fits in. -/
def escape (mark c : Char) : List Char :=
  if c = mark ∨ c = '\\' then ['\\', c]
  else if c = '\t' then ['\\', 't']
  else if c = '\n' then ['\\', 'n']
  else if c = '\r' then ['\\', 'r']
  else if isPrintable c then [c]
  else if c.toNat < 0x100 then '\\' :: 'x' :: hexDigits 2 c.toNat
  else if c.toNat < 0x10000 then '\\' :: 'u' :: hexDigits 4 c.toNat
  else '\\' :: 'U' :: hexDigits 8 c.toNat

def quoteChars (text : List Char) : List Char :=
  let mark := quoteMark text
  mark :: (text.flatMap (escape mark) ++ [mark])

def quote (text : String) : String := String.ofList (quoteChars text.toList)

theorem quoteMark_eq (text : List Char) : quoteMark text = '\'' ∨ quoteMark text = '"' := by
  unfold quoteMark; split <;> simp

end Munch.Text
