import Munch.Encoding.Utf16

/-!
# Encodings of source files

Every encoding decodes every sequence of bytes, with replacement characters where needed, except
that UTF-16 without a given order needs a mark to tell the order from. Line ends stay as they are.
-/

namespace Munch

inductive Encoding where
  | utf8
  | utf8Marked
  | utf16
  | utf16Of (order : Encoding.ByteOrder)
  | latin1
  | ascii
  deriving DecidableEq, Repr

namespace Encoding

def utf8Mark : List UInt8 := [0xEF, 0xBB, 0xBF]

/-- One mark at the front is dropped. -/
def decodeMarked (bytes : List UInt8) : List Char :=
  if utf8Mark.isPrefixOf bytes then Utf8.decode (bytes.drop 3)
  -- a mark that is cut short may still become one, and nothing is read of it
  else if bytes.isPrefixOf utf8Mark then []
  else Utf8.decode bytes

def decodeAscii (b : UInt8) : Char := if b < 0x80 then Char.ofNat b.toNat else replacement

/-- The text of a sequence of bytes, unless a mark is needed and missing. A single byte is too short
to miss one. -/
def decode? : Encoding → List UInt8 → Option (List Char)
  | utf8, bytes => some (Utf8.decode bytes)
  | utf8Marked, bytes => some (decodeMarked bytes)
  | utf16Of order, bytes => some (Utf16.decode order bytes)
  | latin1, bytes => some (bytes.map fun b => Char.ofNat b.toNat)
  | ascii, bytes => some (bytes.map decodeAscii)
  | utf16, bytes =>
    if bytes.length < 2 then some (Utf16.decode .little bytes)
    else if (Utf16.mark .little).isPrefixOf bytes then some (Utf16.decode .little (bytes.drop 2))
    else if (Utf16.mark .big).isPrefixOf bytes then some (Utf16.decode .big (bytes.drop 2))
    else none

/-- The bytes of a text whose characters are all below a bound, one byte each. -/
def encodeBelow? (bound : Nat) (text : List Char) : Option (List UInt8) :=
  if text.all (·.toNat < bound) then some (text.map fun c => .ofNat c.toNat) else none

/-- The bytes of a text, if the encoding has them all. An encoding with a mark writes it; UTF-16
with a mark may be written in either order. -/
def encode? (order : ByteOrder) : Encoding → List Char → Option (List UInt8)
  | utf8, text => some (Utf8.encode text)
  | utf8Marked, text => some (utf8Mark ++ Utf8.encode text)
  | utf16, text => some (Utf16.mark order ++ Utf16.encode order text)
  | utf16Of order, text => some (Utf16.encode order text)
  | latin1, text => encodeBelow? 256 text
  | ascii, text => encodeBelow? 128 text

/-- Only UTF-16 without a given order can fail, and only where both marks are missing. -/
theorem decode?_eq_none_iff {e : Encoding} {bytes : List UInt8} :
    e.decode? bytes = none ↔
      e = utf16 ∧ 2 ≤ bytes.length ∧ ∀ order, ¬ Utf16.mark order <+: bytes := by
  have orders (p : ByteOrder → Prop) : (∀ order, p order) ↔ p .little ∧ p .big :=
    ⟨fun h => ⟨h _, h _⟩, fun h order => by cases order <;> simp [h]⟩
  cases e
  case utf16 =>
    simp only [decode?, orders, true_and, ← List.isPrefixOf_iff_prefix]
    by_cases short : bytes.length < 2
    · have long : ¬ 2 ≤ bytes.length := by omega
      simp [short, long]
    · have long : 2 ≤ bytes.length := by omega
      cases little : (Utf16.mark .little).isPrefixOf bytes <;>
        cases big : (Utf16.mark .big).isPrefixOf bytes <;> simp [short, long]
  all_goals simp [decode?]

end Encoding

end Munch
