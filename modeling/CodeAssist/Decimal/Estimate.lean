import CodeAssist.Decimal.Double
/-!
# Estimated doubles

A decimal of any length can be taken for a double without exact arithmetic on all of its digits. The
leading digits are kept as far as they fit in 64 bits and the others only move the power of ten. The
digits kept and the power of ten are each rounded to a double, and their product is rounded again.
Such an estimate may lie one step beside the nearest double, so close to the largest double it may
be infinite although the nearest double is not.
-/

namespace CodeAssist

namespace Double

/-- The double nearest to the product of two doubles; `none` if it is too large for a double. -/
def mul? (a b : Double) : Option Double :=
  let (num, den) := shift (a.mantissa * b.mantissa) 1 (a.exponent + b.exponent)
  ofFraction? num den

end Double

namespace Decimal

/-- Digits with one more digit behind them, if they still fit in 64 bits. -/
def append? (digits : Nat) (c : Char) : Option Nat :=
  let longer := 10 * digits + (c.toNat - '0'.toNat)
  if longer < 18446744073709551616 then some longer else none

/-- A whole number by its leading digits. From the first digit that does not fit on, digits are only
counted. -/
def leading (digits : Nat) : List Char → Decimal
  | [] => ⟨digits, 0⟩
  | c :: rest =>
    match append? digits c with
    | some longer => leading longer rest
    | none => ⟨digits, rest.length + 1⟩

/-- A decimal with the digits behind its point, as far as they fit. -/
def withPlaces (decimal : Decimal) : List Char → Decimal
  | [] => decimal
  | c :: rest =>
    match append? decimal.digits c with
    | some longer => withPlaces ⟨longer, decimal.power - 1⟩ rest
    | none => decimal

/-- The largest power of ten that is a double. -/
def maxPower : Int := 308

/-- Whether the estimate of a decimal with digits of at most 64 bits is infinite. Such digits are
far below the largest double, so a decimal with a negative power of ten never is. -/
def exceedsDouble (decimal : Decimal) : Bool :=
  if decimal.digits = 0 ∨ decimal.power < 0 then false
  else if maxPower < decimal.power then true
  else
    Option.isNone do
      let digits ← Double.ofFraction? decimal.digits 1
      let power ← Double.ofFraction? (Nat.pow 10 decimal.power.toNat) 1
      digits.mul? power

end Decimal

end CodeAssist
