/-!
# Order of texts by code unit

Texts are ordered by their code units of sixteen bits, a proper beginning first. A character above
`U+FFFF` is two units, both from the block `D800` to `DFFF`; so such characters come before those
from `U+E000` to `U+FFFF`, where this order differs from the order of code points.
-/

namespace Conditions

/-- The code units of a character, one or two. -/
def units16 (c : Char) : List Nat :=
  let n := c.toNat
  if n < 0x10000 then [n]
  else [0xd800 + (n - 0x10000) / 0x400, 0xdc00 + (n - 0x10000) % 0x400]

/-- The code units of a text. -/
def textUnits (s : String) : List Nat := s.toList.flatMap units16

/-- Whether a list of numbers comes before another, a proper beginning first. -/
def precedes : List Nat → List Nat → Bool
  | _, [] => false
  | [], _ :: _ => true
  | a :: s, b :: t => if a = b then precedes s t else decide (a < b)

/-- Whether a text comes before another by code units. -/
def textPrecedes (s t : String) : Bool := precedes (textUnits s) (textUnits t)

end Conditions
