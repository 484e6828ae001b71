import Conditions.Literal
import Conditions.Yaml.Node

/-!
# Values of scalars

What a scalar stands for where any value is wanted. A plain scalar without tag is null, a truth
value, a whole number, a number or else a text; a scalar between quotes or in a block is a text. A
tag of the language asks for one kind and any other tag for a text; a tag that begins with an
exclamation mark stands for no value.
-/

namespace Conditions.Yaml

/-- What a scalar stands for. -/
inductive ScalarValue where
  /-- The null value. -/
  | null
  /-- A truth value. -/
  | bool (b : Bool)
  /-- A whole number of 64 bits. -/
  | whole (i : Int)
  /-- A number. -/
  | real (x : Binary64)
  /-- A text. -/
  | text (s : String)
  deriving DecidableEq

/-- The value in a record, in which the infinities and what is not a number are null. -/
def ScalarValue.toJson : ScalarValue → Json
  | .null => .null
  | .bool b => .bool b
  | .whole i => .number (.whole i)
  | .real x => .ofBinary64 x
  | .text s => .text s

/-- The value as the literal of a condition. -/
def ScalarValue.toLiteral : ScalarValue → Literal
  | .null => .null
  | .bool b => .bool b
  | .whole i => .ofInt i
  | .real x => .number x
  | .text s => .text s

/-! ### Plain scalars -/

/-- Whether a text is one of the words for null. -/
def isNullWord (s : String) : Bool := s ∈ ["null", "Null", "NULL", "~"]

/-- The truth value that a text is a word for. -/
def boolWord? (s : String) : Option Bool :=
  if s ∈ ["true", "True", "TRUE"] then some true
  else if s ∈ ["false", "False", "FALSE"] then some false
  else none

/-- Whether a text is more than one digit after an optional sign, the first of them a zero. -/
def hasIdleZero (s : List Char) : Bool :=
  match (splitSign s).2 with
  | '0' :: d :: ds => (d :: ds).all Char.isDigit
  | _ => false

/-- The number of a text of digits of a radix. -/
def radixValue? (radix : Nat) (s : List Char) : Option Nat :=
  if s = [] then none
  else (s.mapM fun c => (digitValue? c).filter (· < radix)).map
    (·.foldl (fun n d => radix * n + d) 0)

/-- The number of a text of digits, in a radix that its first two characters may give. -/
def naturalValue? (s : List Char) : Option Nat :=
  match s with
  | '0' :: 'x' :: ds => radixValue? 16 ds
  | '0' :: 'o' :: ds => radixValue? 8 ds
  | '0' :: 'b' :: ds => radixValue? 2 ds
  | ds => radixValue? 10 ds

/-- The whole number of any size that a text is a numeral for. -/
def wholeValue? (s : List Char) : Option Int :=
  if hasIdleZero s then none
  else
    match splitSign s with
    | (true, ds) => (naturalValue? ds).map fun n => -(n : Int)
    | (false, ds) => (naturalValue? ds).map fun n => (n : Int)

/-- The number that a text is a numeral or a word for. A numeral past the largest finite number is
none. -/
def realValue? (s : String) : Option Binary64 :=
  if s ∈ [".inf", ".Inf", ".INF", "+.inf", "+.Inf", "+.INF"] then some (.infinity false)
  else if s ∈ ["-.inf", "-.Inf", "-.INF"] then some (.infinity true)
  else if s ∈ [".nan", ".NaN", ".NAN"] then some .nan
  else ((Decimal.parse? s.toList).map Decimal.toBinary64).filter Binary64.isFinite

/-- Whether a whole number fits into 64 bits, with or without a sign. -/
def fitsWord (i : Int) : Bool :=
  decide (-0x8000000000000000 ≤ i) && decide (i < 0x10000000000000000)

/-- Whether a whole number fits into 128 bits, with or without a sign. -/
def fitsDoubleWord (i : Int) : Bool :=
  decide (-0x80000000000000000000000000000000 ≤ i)
    && decide (i < 0x100000000000000000000000000000000)

/-- The whole number of a plain scalar, if it is one; no value stands for a number of more than 64
and up to 128 bits. -/
def wholeScalar? (s : String) : Option (Except Fault ScalarValue) :=
  match (wholeValue? s.toList).filter fitsDoubleWord with
  | some i => some (if fitsWord i then .ok (.whole i) else .error .mismatched)
  | none => none

/-- The value of a plain scalar without tag. -/
def plainValue (s : String) : Except Fault ScalarValue :=
  if s = "" || isNullWord s then .ok .null
  else
    match boolWord? s, wholeScalar? s with
    | some b, _ => .ok (.bool b)
    | none, some value => value
    | none, none =>
      if hasIdleZero s.toList then .ok (.text s)
      else
        match realValue? s with
        | some x => .ok (.real x)
        | none => .ok (.text s)

/-! ### Tags -/

/-- The tag of the language for null. -/
def nullTag : String := "tag:yaml.org,2002:null"

/-- The tag of the language for truth values. -/
def boolTag : String := "tag:yaml.org,2002:bool"

/-- The tag of the language for whole numbers. -/
def intTag : String := "tag:yaml.org,2002:int"

/-- The tag of the language for numbers. -/
def floatTag : String := "tag:yaml.org,2002:float"

/-- What a tag that begins with an exclamation mark names: what follows the mark, or the mark if
nothing does. -/
def localName? (tag : Option String) : Option String :=
  match tag.map String.toList with
  | some ['!'] => some "!"
  | some ('!' :: name) => some (String.ofList name)
  | _ => none

/-- A value, or else a mismatch. -/
def orMismatch {α : Type} : Option α → Except Fault α
  | some a => .ok a
  | none => .error .mismatched

/-- The value of a scalar. -/
def Scalar.value (s : Scalar) : Except Fault ScalarValue :=
  if (localName? s.tag).isSome then .error .mismatched
  else
    match s.tag with
    | none => if s.style = .plain then plainValue s.text else .ok (.text s.text)
    | some tag =>
      if tag = boolTag then orMismatch ((boolWord? s.text).map .bool)
      else if tag = intTag then (wholeScalar? s.text).getD (.error .mismatched)
      else if tag = floatTag then orMismatch ((realValue? s.text).map .real)
      else if tag = nullTag then
        if isNullWord s.text then .ok .null else .error .mismatched
      else .ok (.text s.text)

end Conditions.Yaml
