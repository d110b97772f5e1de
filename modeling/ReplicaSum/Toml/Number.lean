import ReplicaSum.Decimal.Basic
import ReplicaSum.Toml.Text

/-!
# TOML numbers

Integers have 64 bits with a sign. They are written in base ten, or without a sign in base
sixteen, eight or two. A float is an integer of base ten followed by a fraction, an exponent or
both, or the name of a value without digits. A single underscore may stand between two digits.
-/

namespace ReplicaSum.Toml

open Reader

/-- Digits of a class, with underscores between them. -/
def digitRun (p : Char → Bool) : Reader (List Char) := do
  let first ← satisfy p
  let rest ← many (satisfy p <|> (skip '_' *> satisfy p))
  return first :: rest

/-- A sign, if there is one: whether it is a minus. -/
def sign : Reader Bool :=
  (skip '-' *> pure true) <|> (skip '+' *> pure false) <|> pure false

/-- The digits of an integer of base ten; only zero itself starts with a zero. -/
def wholeDigits : Reader (List Char) := do
  match ← peek with
  | some '0' => return [← satisfy (· == '0')]
  | _ => digitRun Char.isDigit

/-! ### Integers -/

/-- The least number that doesn't fit 64 bits with a sign, and the negative of the least one that
does. -/
def integerLimit : Int := Int.ofNat (1 <<< 63)

/-- Refuse a number that doesn't fit 64 bits with a sign. -/
def bounded (n : Int) : Reader Value :=
  if -integerLimit ≤ n ∧ n < integerLimit then return .integer n else refuse

/-- An integer of another base than ten: a zero, the letter of the base, and digits. -/
def basedInteger (letter : Char) (base : Nat) (p : Char → Bool) : Reader Value := do
  skipAll ['0', letter]
  bounded (digitsValue base (← digitRun p))

/-- An integer of base ten. -/
def wholeInteger : Reader Value := do
  let negative ← sign
  let n : Int := digitsValue 10 (← wholeDigits)
  bounded (if negative then -n else n)

/-- An integer of any base. -/
def integer : Reader Value :=
  basedInteger 'x' 16 isHexDigit
    <|> basedInteger 'o' 8 (fun c => '0' ≤ c && c ≤ '7')
    <|> basedInteger 'b' 2 (fun c => c = '0' || c = '1')
    <|> wholeInteger

/-! ### Floats -/

/-- The digits behind a point. -/
def fraction : Reader (List Char) := do
  skip '.'
  digitRun Char.isDigit

/-- The exponent of a float. -/
def exponent : Reader Int := do
  let _ ← satisfy fun c => c = 'e' || c = 'E'
  let negative ← sign
  let n : Int := digitsValue 10 (← digitRun Char.isDigit)
  return if negative then -n else n

/-- A float with digits. One that is too large for a double is refused, unless it is negative. -/
def digitFloat : Reader Value := do
  let negative ← sign
  let whole ← wholeDigits
  let places ← option? fraction
  let power ← option? exponent
  if places.isNone && power.isNone then refuse
  let places := places.getD []
  let x := Decimal.toFloat
    ⟨negative, digitsValue 10 (whole ++ places), power.getD 0 - places.length⟩
  if x.isInf && !negative then refuse
  return .float x

/-- A float without digits. -/
def namedFloat : Reader Value := do
  let negative ← sign
  let x ← (skipAll ['i', 'n', 'f'] *> pure (1.0 / 0.0 : Float))
    <|> (skipAll ['n', 'a', 'n'] *> pure (0.0 / 0.0))
  return .float (if negative then -x else x)

/-- A float of any kind. -/
def float : Reader Value := digitFloat <|> namedFloat

end ReplicaSum.Toml
