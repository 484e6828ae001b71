import Conditions.Number.Shortest

/-!
# Written numbers

A finite number is written with its shortest digits, either positionally or with a power of ten.
A `Layout` says where positional writing ends and whether a whole number shows its point; the two
layouts in use are `plain`, for people, and `document`, for documents.
-/

namespace Conditions

/-- The choices made when digits are written. -/
structure Layout where
  /-- Digits whose point lies at or before this place are written with a power of ten. -/
  before : Option Int
  /-- Digits whose point lies after this place are written with a power of ten. -/
  after : Option Int
  /-- Whether a whole number ends in `.0`. -/
  showsPoint : Bool

namespace Layout

/-- Always positional, and whole numbers without a point. -/
def plain : Layout := ⟨none, none, false⟩

/-- Positional from `0.00001` up to sixteen digits before the point, and always with a point. -/
def document : Layout := ⟨some (-5), some 16, true⟩

/-- Whether digits with a point at this place are written positionally. -/
def isPositional (layout : Layout) (point : Int) : Bool :=
  layout.before.all (· < point) && layout.after.all (point ≤ ·)

/-- Digits written without a power of ten. -/
def positional (layout : Layout) (d : Digits) : List Char :=
  if d.point ≤ 0 then '0' :: '.' :: (List.replicate (-d.point).toNat '0' ++ d.digits)
  else if d.digits.length ≤ d.point.toNat then
    d.digits ++ List.replicate (d.point.toNat - d.digits.length) '0'
      ++ (if layout.showsPoint then ['.', '0'] else [])
  else d.digits.take d.point.toNat ++ '.' :: d.digits.drop d.point.toNat

/-- Digits written with one digit before the point and a power of ten. -/
def scientific (d : Digits) : List Char :=
  d.digits.take 1 ++ (if d.digits.length ≤ 1 then [] else '.' :: d.digits.drop 1)
    ++ 'e' :: (toString (d.point - 1)).toList

/-- Digits written in a layout. -/
def write (layout : Layout) (d : Digits) : List Char :=
  if layout.isPositional d.point then layout.positional d else scientific d

/-- A finite number written in a layout. -/
def writeFinite (layout : Layout) (x : Binary64) : List Char :=
  (if x.negative then ['-'] else []) ++ layout.write x.shortest

end Layout

namespace Binary64

/-- The text of any number, as people read it. -/
def display (x : Binary64) : String :=
  if x.isNaN then "NaN"
  else if x.isFinite then String.ofList (Layout.plain.writeFinite x)
  else if x.negative then "-inf" else "inf"

end Binary64

end Conditions
