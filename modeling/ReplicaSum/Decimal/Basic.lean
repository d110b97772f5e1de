/-!
# Decimal numbers

A decimal number is a sign, a whole number of units and the power of ten that the unit is.
`Decimal.toFloat` reads one as a double, rounded to nearest; `Decimal.text` writes one with a
point and without an exponent.
-/

namespace ReplicaSum

/-- The number `digits * 10 ^ exponent`, or its negative. -/
structure Decimal where
  negative : Bool
  digits : Nat
  exponent : Int
deriving DecidableEq, Repr

namespace Decimal

/-- The decimal digits of a natural number, the first one foremost. -/
def digitChars (n : Nat) : List Char := Nat.toDigits 10 n

/-- The decimal exponent beyond which a number with as many digits before its point exceeds
every double. -/
def largestExponent : Int := 310

/-- The decimal exponent below which a number is nearer to zero than to any other double. -/
def smallestExponent : Int := -330

/-- The size of a decimal number as a double, rounded to nearest. -/
def magnitude (d : Decimal) : Float :=
  let lead := (digitChars d.digits).length + d.exponent
  if d.digits = 0 ∨ lead < smallestExponent then 0.0
  else if largestExponent < lead then 1.0 / 0.0
  else Float.ofScientific d.digits (d.exponent < 0) d.exponent.natAbs

/-- A decimal number as a double, rounded to nearest. -/
def toFloat (d : Decimal) : Float :=
  if d.negative then -d.magnitude else d.magnitude

/-- The digits before the point and those behind it; there is at least one of each. -/
def aroundPoint (d : Decimal) : List Char × List Char :=
  let chars := digitChars d.digits
  if 0 ≤ d.exponent then (chars ++ List.replicate d.exponent.toNat '0', ['0'])
  else
    let places := d.exponent.natAbs
    let padded := List.replicate (places + 1 - chars.length) '0' ++ chars
    (padded.take (padded.length - places), padded.drop (padded.length - places))

/-- A decimal number with a point. -/
def text (d : Decimal) : String :=
  let (whole, places) := d.aroundPoint
  (if d.negative then "-" else "") ++ String.ofList whole ++ "." ++ String.ofList places

end Decimal

end ReplicaSum
