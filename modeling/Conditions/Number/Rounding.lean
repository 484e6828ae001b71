import Conditions.Number.Binary64

/-!
# Rounding to the nearest number

Quotients of natural numbers are rounded to the nearest binary64 number; a quotient halfway
between two numbers goes to the one of even rank, and one that rounds past the largest finite
number goes to infinity.

Below rank `2 ^ 53` consecutive ranks lie one unit apart, and every further `2 ^ 52` ranks double
the distance. So the rank of a magnitude of `52 + k` bits (in units) is `k * 2 ^ 52` plus that
magnitude counted in steps of `2 ^ k`.
-/

namespace Conditions

/-- The whole number nearest to `n / d`; a half goes to the even neighbour. -/
def nearestEven (n d : Nat) : Nat :=
  if 2 * (n % d) < d then n / d
  else if d < 2 * (n % d) then n / d + 1
  else n / d + n / d % 2

/-- A whole number rounded to its leading 53 binary digits; a half goes to the even neighbour. -/
def roundTo53 (n : Nat) : Nat :=
  nearestEven n (Nat.pow 2 (n.log2 - 52)) * Nat.pow 2 (n.log2 - 52)

namespace Binary64

/-- The number of units in one. -/
def unitsPerOne : Nat := Nat.pow 2 1074

/-- The rank nearest to the magnitude `num / den`. -/
def rankOfRatio (num den : Nat) : Nat :=
  let scaled := num * unitsPerOne
  let k := (scaled / den).log2 - 52
  min infinityRank (k * ranksPerShift + nearestEven scaled (den * Nat.pow 2 k))

/-- The number nearest to `num / den`, with a sign. -/
def ofRatio (negative : Bool) (num den : Nat) : Binary64 :=
  ofRank negative (rankOfRatio num den)

/-- The number nearest to a natural number. -/
def ofNat (n : Nat) : Binary64 := ofRatio false n 1

/-- The number nearest to a whole number; zero is the positive zero. -/
def ofInt (i : Int) : Binary64 := ofRatio (decide (i < 0)) i.natAbs 1

/-- The number nearest to `digits * 10 ^ exponent`, with a sign. Exponents that decide the answer
by their size alone, whatever the digits, are answered without computing the power of ten. -/
def ofDecimal (negative : Bool) (digits : Nat) (exponent : Int) : Binary64 :=
  if digits = 0 then ofRank negative 0
  else if 310 < exponent then infinity negative
  else if exponent < -(digits.log2 + 400 : Int) then ofRank negative 0
  else if 0 ≤ exponent then ofRatio negative (digits * Nat.pow 10 exponent.toNat) 1
  else ofRatio negative digits (Nat.pow 10 (-exponent).toNat)

end Binary64

end Conditions
