/-!
# UTF-8

A decoder that reads byte by byte and never fails: what is ill-formed becomes replacement
characters, one for each longest start of a well-formed sequence that goes wrong and one for each
byte that can start none. The encoder is the other direction on well-formed text.
-/

namespace Munch.Encoding

def replacement : Char := '\ufffd'

namespace Utf8

/-- A sequence that has begun: how many bytes it still needs, the bits so far, and the range of the
next byte. -/
structure Pending where
  owed : Nat
  value : Nat
  low : Nat := 0x80
  high : Nat := 0xBF
  deriving DecidableEq, Repr

inductive Lead where
  | char (c : Char)
  | start (p : Pending)
  | malformed
  deriving DecidableEq, Repr

/-- The ranges of the second byte shut out overlong forms, surrogates and numbers beyond Unicode. -/
def lead (b : Nat) : Lead :=
  if b < 0x80 then .char (Char.ofNat b)
  else if b < 0xC2 then .malformed
  else if b < 0xE0 then .start ⟨1, b - 0xC0, 0x80, 0xBF⟩
  else if b = 0xE0 then .start ⟨2, 0, 0xA0, 0xBF⟩
  else if b = 0xED then .start ⟨2, 0xD, 0x80, 0x9F⟩
  else if b < 0xF0 then .start ⟨2, b - 0xE0, 0x80, 0xBF⟩
  else if b = 0xF0 then .start ⟨3, 0, 0x90, 0xBF⟩
  else if b < 0xF4 then .start ⟨3, b - 0xF0, 0x80, 0xBF⟩
  else if b = 0xF4 then .start ⟨3, 4, 0x80, 0x8F⟩
  else .malformed

/-- A byte where no sequence has begun: the characters it gives and the sequence it begins. -/
def enter (b : Nat) : List Char × Option Pending :=
  match lead b with
  | .char c => ([c], none)
  | .start p => ([], some p)
  | .malformed => ([replacement], none)

/-- The next byte. One that does not go on with the sequence begun ends it early and is read
afresh. -/
def step : Option Pending → Nat → List Char × Option Pending
  | none, b => enter b
  | some p, b =>
    if p.low ≤ b ∧ b ≤ p.high then
      let value := p.value * 64 + (b - 0x80)
      if p.owed = 1 then ([Char.ofNat value], none) else ([], some ⟨p.owed - 1, value, 0x80, 0xBF⟩)
    else
      let (chars, next) := enter b
      (replacement :: chars, next)

/-- The text of the bytes that follow. A sequence that the end cuts short counts as ill-formed. -/
def decodeFrom : Option Pending → List UInt8 → List Char
  | none, [] => []
  | some _, [] => [replacement]
  | p, b :: rest =>
    let (chars, next) := step p b.toNat
    chars ++ decodeFrom next rest

def decode (bytes : List UInt8) : List Char := decodeFrom none bytes

@[simp] theorem decode_nil : decode [] = [] := rfl

theorem decodeFrom_cons (p : Option Pending) (b : UInt8) (rest : List UInt8) :
    decodeFrom p (b :: rest) = (step p b.toNat).1 ++ decodeFrom (step p b.toNat).2 rest := by
  cases p <;> rfl

/-- A byte that goes on with a sequence, for the lowest six bits of a number. -/
def trail (n : Nat) : UInt8 := .ofNat (0x80 + n % 64)

def encodeChar (c : Char) : List UInt8 :=
  let n := c.toNat
  if n < 0x80 then [.ofNat n]
  else if n < 0x800 then [.ofNat (0xC0 + n / 0x40), trail n]
  else if n < 0x10000 then [.ofNat (0xE0 + n / 0x1000), trail (n / 0x40), trail n]
  else [.ofNat (0xF0 + n / 0x40000), trail (n / 0x1000), trail (n / 0x40), trail n]

def encode (text : List Char) : List UInt8 := text.flatMap encodeChar

end Utf8

end Munch.Encoding
