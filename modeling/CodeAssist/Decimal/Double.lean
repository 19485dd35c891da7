/-!
# Doubles in exact arithmetic

A finite double without its sign is a number `mantissa * 2 ^ exponent` with a mantissa below
`2 ^ 53` and an exponent of at least `-1074`. This module rounds a decimal to the nearest double and
finds the shortest decimal that rounds back to a double, both by exact arithmetic on natural
numbers.
-/

namespace CodeAssist

/-- A finite double without its sign. -/
structure Double where
  mantissa : Nat
  exponent : Int
deriving DecidableEq, Repr, Inhabited

/-- The decimal number `digits * 10 ^ power`. -/
structure Decimal where
  digits : Nat
  power : Int
deriving DecidableEq, Repr, Inhabited

namespace Decimal

/-- A decimal as a fraction of natural numbers. -/
def fraction (decimal : Decimal) : Nat × Nat :=
  if 0 ≤ decimal.power then (decimal.digits * Nat.pow 10 decimal.power.toNat, 1)
  else (decimal.digits, Nat.pow 10 (-decimal.power).toNat)

/-- The decimal digits in positional notation, always with a point and a digit on either side. -/
def positional (decimal : Decimal) : List Char :=
  let digits := Nat.toDigits 10 decimal.digits
  if 0 ≤ decimal.power then
    let zeros := if decimal.digits = 0 then 0 else decimal.power.toNat
    digits ++ List.replicate zeros '0' ++ ['.', '0']
  else
    let places := (-decimal.power).toNat
    let padded := List.replicate (places + 1 - digits.length) '0' ++ digits
    padded.take (padded.length - places) ++ '.' :: padded.drop (padded.length - places)

end Decimal

namespace Double

/-- The smallest exponent of a double. -/
def minExponent : Int := -1074

/-- The largest exponent of a double with a full mantissa. -/
def maxExponent : Int := 971

/-- A fraction multiplied by a power of two. -/
def shift (num den : Nat) (power : Int) : Nat × Nat :=
  if 0 ≤ power then (num * Nat.pow 2 power.toNat, den) else (num, den * Nat.pow 2 (-power).toNat)

/-- The integer nearest to a fraction; of two equally near ones the even one. -/
def roundEven (num den : Nat) : Nat :=
  let whole := num / den
  let rest := num % den
  if 2 * rest < den then whole
  else if den < 2 * rest then whole + 1
  else if whole % 2 = 0 then whole else whole + 1

/-- The exponent at which a fraction has a mantissa of 53 bits, or the smallest exponent. -/
def exponentFor (num den : Nat) : Int :=
  let guess : Int := (num.log2 : Int) - den.log2 - 52
  let (n, d) := shift num den (-guess)
  max minExponent (if n < Nat.pow 2 52 * d then guess - 1 else guess)

/-- The double nearest to a fraction; `none` if it is too large for a double. -/
def ofFraction? (num den : Nat) : Option Double :=
  if num = 0 then some ⟨0, 0⟩
  else
    let exponent := exponentFor num den
    let (n, d) := shift num den (-exponent)
    let mantissa := roundEven n d
    let (mantissa, exponent) :=
      if mantissa = Nat.pow 2 53 then (Nat.pow 2 52, exponent + 1) else (mantissa, exponent)
    if maxExponent < exponent then none else some ⟨mantissa, exponent⟩

/-- The double nearest to a decimal; `none` if it is too large for a double. Decimals far out of
range are told by their size alone. -/
def ofDecimal? (decimal : Decimal) : Option Double :=
  if decimal.digits = 0 then some ⟨0, 0⟩
  else
    let magnitude : Int := (Nat.toDigits 10 decimal.digits).length + decimal.power
    if 400 < magnitude then none
    else if magnitude < -400 then some ⟨0, 0⟩
    else
      let (num, den) := decimal.fraction
      ofFraction? num den

/-! ## The shortest decimal -/

/-- The numbers that round to a double lie between two bounds around it. All three are given in
quarters of the last place of the mantissa, over a common denominator. -/
structure Neighbourhood where
  low : Nat
  value : Nat
  high : Nat
  denominator : Nat
  /-- Whether the bounds themselves round to the double. -/
  closed : Bool

/-- The neighbourhood of a double. Below a power of two the next double is nearer. -/
def neighbourhood (double : Double) : Neighbourhood :=
  let below := if double.mantissa = Nat.pow 2 52 ∧ minExponent < double.exponent then 1 else 2
  let scale (quarters : Nat) : Nat := (shift quarters 1 (double.exponent - 2)).1
  { low := scale (4 * double.mantissa - below)
    value := scale (4 * double.mantissa)
    high := scale (4 * double.mantissa + 2)
    denominator := (shift 1 1 (double.exponent - 2)).2
    closed := double.mantissa % 2 = 0 }

namespace Neighbourhood

/-- Whether a decimal lies in the neighbourhood. -/
def contains (bounds : Neighbourhood) (decimal : Decimal) : Bool :=
  let (num, den) := decimal.fraction
  let point := num * bounds.denominator
  if bounds.closed then bounds.low * den ≤ point && point ≤ bounds.high * den
  else bounds.low * den < point && point < bounds.high * den

/-- How far a decimal lies from the middle, in units that depend on its power of ten only. -/
def distance (bounds : Neighbourhood) (decimal : Decimal) : Nat :=
  let (num, den) := decimal.fraction
  let point := num * bounds.denominator
  let value := bounds.value * den
  if point ≤ value then value - point else point - value

/-- The nearest decimal with a given power of ten that lies in the neighbourhood; of two equally
near ones the larger. -/
def onGrid? (bounds : Neighbourhood) (power : Int) : Option Decimal :=
  let (num, den) := Decimal.fraction ⟨1, power⟩
  let lower : Decimal := ⟨bounds.value * den / (bounds.denominator * num), power⟩
  let upper : Decimal := ⟨lower.digits + 1, power⟩
  match bounds.contains lower, bounds.contains upper with
  | true, true => some (if bounds.distance lower < bounds.distance upper then lower else upper)
  | true, false => some lower
  | false, true => some upper
  | false, false => none

/-- The first hit on finer and finer grids. -/
def search (bounds : Neighbourhood) : Nat → Int → Option Decimal
  | 0, _ => none
  | grids + 1, power =>
    match bounds.onGrid? power with
    | some decimal => some decimal
    | none => bounds.search grids (power - 1)

end Neighbourhood

/-- A power of ten above every double. -/
def topPower : Int := 309

/-- The decimal with the fewest digits that rounds to a double, of these the nearest to it, and of
two equally near ones the larger. -/
def shortest (double : Double) : Decimal :=
  if double.mantissa = 0 then ⟨0, 0⟩
  else (double.neighbourhood.search 700 topPower).getD ⟨0, 0⟩

end Double

end CodeAssist
