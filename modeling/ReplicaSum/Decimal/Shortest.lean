import ReplicaSum.Decimal.Basic

/-!
# The shortest decimal of a double

Among the decimal numbers that are read as a given double, the shortest one is the one with
the fewest digits and, of those, the nearest to the double.

A positive double is `m * 2 ^ q`. The numbers that are read as it lie between the middle of the
gap below and the middle of the gap above it; the ends belong to it when `m` is even. Scaled by
four, all of them are whole numbers, so every comparison is one of natural numbers. On the grid
of the multiples of a power of ten only the two neighbours of the double need to be tried, and
the coarsest grid that has a hit gives the fewest digits.
-/

namespace ReplicaSum

/-- The significand and the exponent of a positive finite double, and whether the gap below it is
only half as wide as the gap above. -/
structure Binary where
  significand : Nat
  exponent : Int
  narrowBelow : Bool

/-- The leading bit of a significand of full length. -/
def leadingBit : Nat := 1 <<< 52

/-- The parts of the absolute value of a finite double. -/
def Binary.ofFloat (x : Float) : Binary :=
  let bits : Nat := x.toBits.toNat
  let biased : Nat := bits / leadingBit % 2048
  let fraction : Nat := bits % leadingBit
  if biased = 0 then ⟨fraction, -1074, false⟩
  else ⟨leadingBit + fraction, (biased : Int) - 1075, fraction = 0 && 1 < biased⟩

namespace Decimal

/-- Whether `d * 10 ^ k`, as `d * unit`, lies among the numbers from `low` to `high`. The two
ends count if `closed` holds. -/
def isBetween (closed : Bool) (low high d unit : Nat) : Bool :=
  if closed then low ≤ d * unit && d * unit ≤ high else low < d * unit && d * unit < high

/-- The multiple of `unit` that stands for `middle`: of its two neighbours that lie among the
numbers from `low` to `high` the nearer one, or the larger one if both are as near. -/
def onGrid (closed : Bool) (low middle high unit : Nat) : Option Nat :=
  let d := middle / unit
  let below := 0 < d && isBetween closed low high d unit
  let above := isBetween closed low high (d + 1) unit
  if below && above then
    if middle - d * unit < (d + 1) * unit - middle then some d else some (d + 1)
  else if below then some d
  else if above then some (d + 1)
  else none

/-- Search the grids of the powers of ten below `10 ^ k`, the coarsest one first. -/
def searchGrids (closed : Bool) (low middle high : Nat) (scale : Nat) :
    Nat → Int → Option (Nat × Int)
  | 0, _ => none
  | n + 1, k =>
    let found :=
      if 0 ≤ k then onGrid closed low middle high (scale * Nat.pow 10 k.toNat)
      else
        let ten := Nat.pow 10 k.natAbs
        onGrid closed (low * ten) (middle * ten) (high * ten) scale
    match found with
    | some d => some (d, k)
    | none => searchGrids closed low middle high scale n (k - 1)

/-- The shortest decimal that is read as a finite double. -/
def shortest (x : Float) : Decimal :=
  let b := Binary.ofFloat x
  let negative := 1 <<< 63 ≤ x.toBits.toNat
  let closed := b.significand % 2 = 0
  let low := 4 * b.significand - (if b.narrowBelow then 1 else 2)
  let middle := 4 * b.significand
  let high := 4 * b.significand + 2
  let q := b.exponent - 2
  let factor := 1 <<< q.toNat
  let scale := 1 <<< (-q).toNat
  let found :=
    if b.significand = 0 then none
    else searchGrids closed (low * factor) (middle * factor) (high * factor) scale 700 310
  match found with
  | some (d, k) => ⟨negative, d, k⟩
  | none => ⟨negative, 0, 0⟩

end Decimal

/-- The text of a double: its shortest decimal with a point, or the name of what has none. -/
def floatText (x : Float) : String :=
  if x.isNaN then "NaN"
  else if x.isInf then (if x < 0 then "-inf" else "inf")
  else (Decimal.shortest x).text

end ReplicaSum
