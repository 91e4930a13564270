import Munch.Encoding.Utf8

/-!
# UTF-16

Bytes are paired to units in a given order, and units to characters. A surrogate without its
partner becomes a replacement character, and so does whatever is cut short by the end.
-/

namespace Munch.Encoding

inductive ByteOrder where
  | little
  | big
  deriving DecidableEq, Repr

namespace Utf16

def unit (order : ByteOrder) (first second : UInt8) : Nat :=
  match order with
  | .little => second.toNat * 256 + first.toNat
  | .big => first.toNat * 256 + second.toNat

/-- The units of a sequence of bytes, and whether a byte is left over. -/
def units (order : ByteOrder) : List UInt8 → List Nat × Bool
  | first :: second :: rest =>
    let (more, odd) := units order rest
    (unit order first second :: more, odd)
  | [_] => ([], true)
  | [] => ([], false)

def isHigh (u : Nat) : Bool := 0xD800 ≤ u && u < 0xDC00

def isLow (u : Nat) : Bool := 0xDC00 ≤ u && u < 0xE000

def pair (high low : Nat) : Char :=
  Char.ofNat (0x10000 + (high - 0xD800) * 0x400 + (low - 0xDC00))

/-- The text of a sequence of units. `odd` says that a byte follows the last of them; with a first
surrogate right before it, it makes one thing cut short. -/
def ofUnits (odd : Bool) : List Nat → List Char
  | [] => if odd then [replacement] else []
  | [u] =>
    if isHigh u then [replacement]
    else (if isLow u then replacement else Char.ofNat u) :: (if odd then [replacement] else [])
  | u :: v :: rest =>
    if isHigh u then
      if isLow v then pair u v :: ofUnits odd rest else replacement :: ofUnits odd (v :: rest)
    else (if isLow u then replacement else Char.ofNat u) :: ofUnits odd (v :: rest)

def decode (order : ByteOrder) (bytes : List UInt8) : List Char :=
  let (us, odd) := units order bytes
  ofUnits odd us

def charUnits (c : Char) : List Nat :=
  let n := c.toNat
  if n < 0x10000 then [n]
  else [0xD800 + (n - 0x10000) / 0x400, 0xDC00 + (n - 0x10000) % 0x400]

def unitBytes (order : ByteOrder) (u : Nat) : List UInt8 :=
  match order with
  | .little => [.ofNat (u % 256), .ofNat (u / 256)]
  | .big => [.ofNat (u / 256), .ofNat (u % 256)]

def encode (order : ByteOrder) (text : List Char) : List UInt8 :=
  (text.flatMap charUnits).flatMap (unitBytes order)

/-- The mark at the front of a sequence of bytes that tells their order. -/
def mark (order : ByteOrder) : List UInt8 := unitBytes order 0xFEFF

end Utf16

end Munch.Encoding
