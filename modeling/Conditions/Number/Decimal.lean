import Conditions.Number.Rounding

/-!
# Decimal numerals

A numeral is an optional sign, digits with an optional point among, before or after them, and an
optional power of ten: `[+-]? (D+ | D+.D* | .D+) ([eE] [+-]? D+)?` with ASCII digits `D`.
-/

namespace Conditions

/-- A signed decimal numeral: `digits * 10 ^ exponent`. -/
structure Decimal where
  /-- Whether the numeral carries a minus sign. -/
  negative : Bool
  /-- The digits before and after the point, as one natural number. -/
  digits : Nat
  /-- The power of ten by which the digits are scaled. -/
  exponent : Int
  deriving DecidableEq

/-- The value of a digit of any radix up to 36, either case of letter. -/
def digitValue? (c : Char) : Option Nat :=
  if c.isDigit then some (c.toNat - '0'.toNat)
  else if c.isLower then some (c.toNat - 'a'.toNat + 10)
  else if c.isUpper then some (c.toNat - 'A'.toNat + 10)
  else none

/-- The natural number that decimal digits denote. -/
def decimalValue (ds : List Char) : Nat :=
  ds.foldl (fun n c => 10 * n + (c.toNat - '0'.toNat)) 0

/-- Splits an optional sign off a text: whether it is a minus sign, and what follows. -/
def splitSign : List Char → Bool × List Char
  | '-' :: s => (true, s)
  | '+' :: s => (false, s)
  | s => (false, s)

namespace Decimal

/-- The power of ten at the end of a numeral; an empty text is the zeroth power. -/
def parseExponent? : List Char → Option Int
  | [] => some 0
  | c :: s =>
    let (negative, ds) := splitSign s
    if (c = 'e' ∨ c = 'E') ∧ ds ≠ [] ∧ ds.all Char.isDigit then
      some (if negative then -(decimalValue ds : Int) else decimalValue ds)
    else none

/-- The digits after a point at the head of a text, and what follows them. -/
def splitFraction : List Char → List Char × List Char
  | '.' :: s => (s.takeWhile Char.isDigit, s.dropWhile Char.isDigit)
  | s => ([], s)

/-- The numeral that a whole text is, if it is one. -/
def parse? (s : List Char) : Option Decimal :=
  let (negative, s) := splitSign s
  let whole := s.takeWhile Char.isDigit
  let (fraction, tail) := splitFraction (s.dropWhile Char.isDigit)
  if whole = [] ∧ fraction = [] then none
  else (parseExponent? tail).map fun e =>
    ⟨negative, decimalValue (whole ++ fraction), e - fraction.length⟩

/-- The number nearest to a numeral. -/
def toBinary64 (d : Decimal) : Binary64 := .ofDecimal d.negative d.digits d.exponent

end Decimal

end Conditions
