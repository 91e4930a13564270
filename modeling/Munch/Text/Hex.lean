/-!
# Hexadecimal numerals of fixed width
-/

namespace Munch.Text

/-- The last `width` hexadecimal digits of a number, in lower case. -/
def hexDigits : Nat → Nat → List Char
  | 0, _ => []
  | width + 1, n => hexDigits width (n / 16) ++ [Nat.digitChar (n % 16)]

@[simp] theorem length_hexDigits (width n : Nat) : (hexDigits width n).length = width := by
  induction width generalizing n with
  | zero => rfl
  | succ width ih => simp [hexDigits, ih]

/-- The label of a code point: `U+` and its number in upper-case hexadecimal, of at least four
digits. -/
def codePointLabel (c : Char) : String :=
  let width := if c.toNat < 0x10000 then 4 else if c.toNat < 0x100000 then 5 else 6
  "U+" ++ String.ofList ((hexDigits width c.toNat).map Char.toUpper)

end Munch.Text
