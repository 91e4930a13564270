/-!
# Integers as they are typed

A numeral may have blanks around it and a sign, a single underscore between two digits, leading
zeros, and the decimal digits of any script. It may have at most `maxDigits` digits.
-/

namespace Munch.Numeral

/-- The code points of the digits zero in Unicode 14.0. In every script the other nine digits follow
in order. -/
def zeros : List Nat :=
  [0x30, 0x660, 0x6f0, 0x7c0, 0x966, 0x9e6, 0xa66, 0xae6, 0xb66, 0xbe6, 0xc66, 0xce6, 0xd66, 0xde6,
   0xe50, 0xed0, 0xf20, 0x1040, 0x1090, 0x17e0, 0x1810, 0x1946, 0x19d0, 0x1a80, 0x1a90, 0x1b50,
   0x1bb0, 0x1c40, 0x1c50, 0xa620, 0xa8d0, 0xa900, 0xa9d0, 0xa9f0, 0xaa50, 0xabf0, 0xff10,
   0x104a0, 0x10d30, 0x11066, 0x110f0, 0x11136, 0x111d0, 0x112f0, 0x11450, 0x114d0, 0x11650,
   0x116c0, 0x11730, 0x118e0, 0x11950, 0x11c50, 0x11d50, 0x11da0, 0x16a60, 0x16ac0, 0x16b50,
   0x1d7ce, 0x1d7d8, 0x1d7e2, 0x1d7ec, 0x1d7f6, 0x1e140, 0x1e2f0, 0x1e950, 0x1fbf0]

def digit? (c : Char) : Option Nat :=
  (zeros.find? fun z => z ≤ c.toNat && c.toNat < z + 10).map (c.toNat - ·)

/-- The blanks that may stand around a numeral: six of ASCII and those beyond it. -/
def isBlank (c : Char) : Bool :=
  [' ', '\t', '\n', '\r', '\x0b', '\x0c', '\u0085', '\u00a0', '\u1680', '\u2028', '\u2029',
    '\u202f', '\u205f', '\u3000'].contains c || (0x2000 ≤ c.toNat && c.toNat ≤ 0x200a)

/-- The digits of a numeral without blanks and sign. -/
def digits? : List Char → Option (List Nat)
  | [] => none
  | [c] => (digit? c).map ([·])
  | c :: '_' :: rest => do return (← digit? c) :: (← digits? rest)
  | c :: rest => do return (← digit? c) :: (← digits? rest)

/-- A numeral of more digits is refused. -/
def maxDigits : Nat := 4300

def ofDigits (ds : List Nat) : Nat := ds.foldl (fun n d => 10 * n + d) 0

def nat? (text : List Char) : Option Nat := do
  let ds ← digits? text
  if ds.length ≤ maxDigits then some (ofDigits ds) else none

def int? (text : String) : Option Int :=
  let front := text.toList.dropWhile isBlank
  match (front.reverse.dropWhile isBlank).reverse with
  | '+' :: rest => (nat? rest).map Int.ofNat
  | '-' :: rest => (nat? rest).map fun n => -Int.ofNat n
  | rest => (nat? rest).map Int.ofNat

end Munch.Numeral
