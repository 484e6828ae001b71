import Conditions.Json.Value
import Conditions.Text.Quoted

/-!
# Literals

The value that a comparison compares with: nothing, a truth value, a number or a text. `same` tells
when two literals are one value; numbers are compared as numbers, so a literal that is not a number
is not the same as itself.
-/

namespace Conditions

/-- The right-hand value of a comparison. -/
inductive Literal where
  /-- The null value. -/
  | null
  /-- A truth value. -/
  | bool (b : Bool)
  /-- A number. -/
  | number (x : Binary64)
  /-- A text. -/
  | text (s : String)
  deriving DecidableEq, Inhabited

namespace Literal

/-- The literal for a whole number. -/
def ofInt (i : Int) : Literal := .number (.ofInt i)

/-- Whether two literals are the same value. -/
def same : Literal → Literal → Bool
  | .null, .null => true
  | .bool a, .bool b => a == b
  | .number x, .number y => x.eq y
  | .text s, .text t => s == t
  | _, _ => false

/-- The literal that a value of a document is, if it holds no other values. -/
def ofJson? : Json → Option Literal
  | .null => some .null
  | .bool b => some (.bool b)
  | .number n => some (.number n.toBinary64)
  | .text s => some (.text s)
  | .array _ | .object _ => none

/-- The value that stands for a literal in a document. -/
def toJson : Literal → Json
  | .null => .null
  | .bool b => .bool b
  | .number x => .ofBinary64 x
  | .text s => .text s

/-- The literal as people read it, texts between quotes. -/
def display : Literal → String
  | .null => "null"
  | .bool b => if b then "true" else "false"
  | .number x => x.display
  | .text s => quoted s

end Literal

end Conditions
