import Conditions.Number.Rounding

/-!
# Scaling by powers of ten

The quick way to a number from decimal digits: the digits are rounded to a number, which is then
multiplied or divided by a power of ten that has been rounded as well. The result is rounded once
more, so it need not be the number nearest to the decimal; `ofDecimal` is that number.

Powers of ten up to `10 ^ 308` are at hand. A greater one divides in steps of `10 ^ 308`, and makes
any number but zero infinite.
-/

namespace Conditions.Binary64

/-- The product of two finite numbers. -/
def mul (x y : Binary64) : Binary64 :=
  ofRatio (x.negative != y.negative) (units x.rank * units y.rank) (unitsPerOne * unitsPerOne)

/-- The quotient of two finite numbers, of which the second is not zero. -/
def div (x y : Binary64) : Binary64 :=
  ofRatio (x.negative != y.negative) (units x.rank) (units y.rank)

/-- The greatest power of ten at hand. -/
def greatestPower : Nat := 308

/-- The number nearest to a power of ten. -/
def powerOfTen (k : Nat) : Binary64 := ofNat (Nat.pow 10 k)

/-- A number divided by the greatest power of ten a number of times, until it is zero. -/
def divideOften (x : Binary64) : Nat → Binary64
  | 0 => x
  | times + 1 => if x.rank = 0 then x else divideOften (x.div (powerOfTen greatestPower)) times

/-- A number divided by `10 ^ k`, in steps if the power is not at hand. -/
def divideBy (x : Binary64) (k : Nat) : Binary64 :=
  let times := (k - 1) / greatestPower
  (x.divideOften times).div (powerOfTen (k - times * greatestPower))

/-- A number multiplied by `10 ^ k`. -/
def multiplyBy (x : Binary64) (k : Nat) : Binary64 :=
  if k ≤ greatestPower then x.mul (powerOfTen k)
  else if x.rank = 0 then x else infinity x.negative

/-- The digits scaled by `10 ^ exponent`, with a sign: the number nearest to the digits is
multiplied or divided by the power. -/
def ofScaled (negative : Bool) (digits : Nat) (exponent : Int) : Binary64 :=
  if 0 ≤ exponent then (ofRatio negative digits 1).multiplyBy exponent.toNat
  else (ofRatio negative digits 1).divideBy (-exponent).toNat

end Conditions.Binary64
