/-!
# Shortest decimals

The decimal of fewest digits that reads back as a given binary number. A positive binary number
stands for all reals that round to it, an interval around it; the answer is a multiple of the
coarsest power of ten that has a multiple in that interval, and of two such multiples the nearer
one.
-/

namespace Munch.Decimal

/-- The positive number `mantissa * 2 ^ exponent` of a binary format, with the distances to the
ends of its rounding interval, in quarters of a unit in the last place. -/
structure Binary where
  mantissa : Nat
  exponent : Int
  below : Nat := 2
  above : Nat := 2
  deriving DecidableEq, Repr

structure Scaled where
  digits : Nat
  exponent : Int
  deriving DecidableEq, Repr

namespace Binary

/-- The magnitude of a finite 64-bit float. The gap below a power of two is half the gap above it,
except for the least power that is not subnormal. -/
def ofFloat (x : Float) : Binary :=
  let bits := x.toBits.toNat
  let one := Nat.pow 2 52
  let fraction := bits % one
  let field := bits / one % Nat.pow 2 11
  if field = 0 then { mantissa := fraction, exponent := -1074 }
  else
    { mantissa := one + fraction
      exponent := Int.ofNat field - 1075
      below := if fraction = 0 ∧ 1 < field then 1 else 2 }

/-- Whether `q` quarters of a unit in the last place lie in the rounding interval of `b`, for
`q = n / scale`. Its ends round to even mantissas only. -/
def contains (b : Binary) (n scale : Nat) : Bool :=
  let low := (4 * b.mantissa - b.below) * scale
  let high := (4 * b.mantissa + b.above) * scale
  if b.mantissa % 2 = 0 then low ≤ n && n ≤ high else low < n && n < high

/-- The multiple of `10 ^ k` that stands for `b`, if one does: of the two multiples around the
value, one in the rounding interval, and the nearer if both are. Equally near ones go to the even
digit. -/
def multiple? (b : Binary) (k : Int) : Option Nat :=
  let p := b.exponent - 2
  let scale := Nat.pow 2 p.toNat * Nat.pow 10 (-k).toNat
  let step := Nat.pow 10 k.toNat * Nat.pow 2 (-p).toNat
  let value := 4 * b.mantissa * scale
  let d := value / step
  let down := 0 < d && b.contains (d * step) scale
  let up := b.contains ((d + 1) * step) scale
  match down, up with
  | true, true =>
    match compare (2 * (value - d * step)) step with
    | .lt => some d
    | .gt => some (d + 1)
    | .eq => some (if d % 2 = 0 then d else d + 1)
  | true, false => some d
  | false, true => some (d + 1)
  | false, false => none

/-- The coarsest grid that holds a decimal for `b` gives the fewest digits. Grids from `10 ^ 309`
down to `10 ^ -350` are enough for 64-bit floats. -/
def shortest (b : Binary) : Scaled :=
  let hit := (List.range 660).findSome? fun i =>
    let k := 309 - Int.ofNat i
    (b.multiple? k).map (Scaled.mk · k)
  hit.getD ⟨b.mantissa, 0⟩

end Binary

/-- How a number is laid out: in positions when its leading digit stands for at least `10 ^ -4` and
less than `10 ^ 16`, always with a digit after the point, and else with an exponent that has a sign
and at least two digits. -/
def Scaled.layout (s : Scaled) : String :=
  let ds := Nat.toDigits 10 s.digits
  let point : Int := ds.length + s.exponent
  if -4 < point ∧ point ≤ 16 then
    if point ≤ 0 then "0." ++ String.ofList (List.replicate (-point).toNat '0' ++ ds)
    else
      let whole := ds.take point.toNat ++ List.replicate (point.toNat - ds.length) '0'
      let rest := ds.drop point.toNat
      String.ofList whole ++ "." ++ (if rest.isEmpty then "0" else String.ofList rest)
  else
    let lead := String.ofList (ds.take 1)
    let rest := ds.drop 1
    let e := point - 1
    let size := toString e.natAbs
    lead ++ (if rest.isEmpty then "" else "." ++ String.ofList rest) ++ "e"
      ++ (if e < 0 then "-" else "+") ++ (if size.length < 2 then "0" ++ size else size)

def renderFloat (x : Float) : String :=
  if x.isNaN then "nan"
  else
    let sign := if x.toBits.toNat / Nat.pow 2 63 = 1 then "-" else ""
    if x.isInf then sign ++ "inf"
    else if x == 0 then sign ++ "0.0"
    else sign ++ (Binary.ofFloat x).shortest.layout

end Munch.Decimal
