import Conditions.Number.Decimal

/-!
# The fewest digits that read back

The decimal digits of a finite number are the fewest that are rounded back to it; among those the
nearest to the number, and of two equally near the larger. The grids of one, two, … seventeen
digits are tried in turn: if any point of a grid reads back, one of the two neighbours of the
number on that grid does.
-/

namespace Conditions

/-- Decimal digits with a point: `0.d₁d₂… * 10 ^ point`. -/
structure Digits where
  /-- The digits, without zeros at the end. -/
  digits : List Char
  /-- How many of the digits stand before the point; zeros fill what is missing. -/
  point : Int
  deriving DecidableEq

namespace Digits

/-- The digits of `n * 10 ^ exponent`. -/
def ofScaled (n : Nat) (exponent : Int) : Digits :=
  let ds := Nat.toDigits 10 n
  ⟨(ds.reverse.dropWhile (· = '0')).reverse, ds.length + exponent⟩

end Digits

namespace Binary64

/-- The magnitude of a number over `10 ^ exponent`, as a fraction of natural numbers. -/
def overPower (x : Binary64) (exponent : Int) : Nat × Nat :=
  if 0 ≤ exponent then (units x.rank, unitsPerOne * Nat.pow 10 exponent.toNat)
  else (units x.rank * Nat.pow 10 (-exponent).toNat, unitsPerOne)

/-- How many digits the magnitude of a number has before the point; for a magnitude below one tenth
this is the number of zeros after the point, negated. -/
def pointPosition (x : Binary64) : Int :=
  (Nat.toDigits 10 (units x.rank * Nat.pow 10 400 / unitsPerOne)).length - 400

/-- Whether `n * 10 ^ exponent` is rounded to the magnitude of a number. -/
def readsBack (x : Binary64) (n : Nat) (exponent : Int) : Bool :=
  (ofDecimal false n exponent).rank == x.rank

/-- The neighbour of a number among the multiples of `10 ^ exponent` that reads back: the nearer
one if both do. -/
def neighbour? (x : Binary64) (exponent : Int) : Option Nat :=
  let (n, d) := x.overPower exponent
  let low := n / d
  match x.readsBack low exponent, x.readsBack (low + 1) exponent with
  | true, true => some (if 2 * (n % d) < d then low else low + 1)
  | true, false => some low
  | false, true => some (low + 1)
  | false, false => none

/-- The fewest decimal digits that read back as the magnitude of a finite number. -/
def shortest (x : Binary64) : Digits :=
  if x.rank = 0 then ⟨['0'], 1⟩
  else
    let point := x.pointPosition
    let grids := (List.range 17).map fun (n : Nat) => point - (n + 1)
    match grids.findSome? fun e => (x.neighbour? e).map (Digits.ofScaled · e) with
    | some digits => digits
    | none => ⟨[], 0⟩

end Binary64

end Conditions
