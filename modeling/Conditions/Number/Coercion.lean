import Conditions.Number.Decimal
import Conditions.Text.Blank

/-!
# Numbers in text

The number that a text stands for when it is ordered against a number. Blanks around the numeral
do not count and a blank text is zero. A numeral is decimal, an infinity, or digits of radix
sixteen, eight or two after `0x`, `0o` or `0b`; any other text is not a number.

Digits of a radix are taken one at a time, and the number so far is rounded to 53 binary digits
after each.
-/

namespace Conditions

/-- The number that digits of a radix denote, rounded after each digit. -/
def radixNumber (radix : Nat) (ds : List Char) : Binary64 :=
  if ds = [] then .nan
  else
    match ds.mapM (fun c => (digitValue? c).filter (· < radix)) with
    | some values => .ofNat (values.foldl (fun n d => roundTo53 (radix * n + d)) 0)
    | none => .nan

/-- The number that a numeral without blanks around it denotes. -/
def numeralNumber (s : List Char) : Binary64 :=
  match s with
  | [] => .zero
  | '0' :: 'x' :: ds | '0' :: 'X' :: ds => radixNumber 16 ds
  | '0' :: 'o' :: ds | '0' :: 'O' :: ds => radixNumber 8 ds
  | '0' :: 'b' :: ds | '0' :: 'B' :: ds => radixNumber 2 ds
  | _ =>
    if s = "Infinity".toList ∨ s = "+Infinity".toList then .infinity false
    else if s = "-Infinity".toList then .infinity true
    else match Decimal.parse? s with
      | some d => d.toBinary64
      | none => .nan

/-- The number that a text stands for in an ordering. -/
def textNumber (s : String) : Binary64 := numeralNumber (trimOf isNumericBlank s.toList)

end Conditions
