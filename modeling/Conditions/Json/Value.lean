import Conditions.Fields
import Conditions.Number.Layout

/-!
# JSON values

The values that a JSON document holds. A number keeps how it was written: whole numbers of up to 64
bits stay whole, all others are binary64 numbers.
-/

namespace Conditions

/-- A number of a document. -/
inductive JsonNumber where
  /-- A whole number. -/
  | whole (i : Int)
  /-- A number with a point, a power of ten, or too many digits. -/
  | real (x : Binary64)
  deriving DecidableEq

/-- The binary64 number nearest to a number of a document. -/
def JsonNumber.toBinary64 : JsonNumber → Binary64
  | .whole i => .ofInt i
  | .real x => x

/-- A JSON value. -/
inductive Json where
  /-- The null value. -/
  | null
  /-- A truth value. -/
  | bool (b : Bool)
  /-- A number. -/
  | number (n : JsonNumber)
  /-- A text. -/
  | text (s : String)
  /-- A list of values. -/
  | array (items : List Json)
  /-- Named values in the order given. -/
  | object (members : List (String × Json))
  deriving Inhabited

namespace Json

/-- The object with the members written by a list, the last under a name standing, in the order of
the names. -/
def ofWrites (writes : List (String × Json)) : Json := .object (Fields.ofWrites writes)

/-- The value for a number, which is null for the infinities and for what is not a number. -/
def ofBinary64 (x : Binary64) : Json := if x.isFinite then .number (.real x) else .null

/-- The common name of the kind of a value. -/
def kindName : Json → String
  | .null => "null"
  | .bool _ => "boolean"
  | .number _ => "number"
  | .text _ => "string"
  | .array _ => "array"
  | .object _ => "object"

end Json

end Conditions
