import Conditions.Condition.Basic
import Conditions.Json.Decode
import Conditions.Json.Reader
import Conditions.Json.Printer

/-!
# Conditions in JSON

A condition is written as an object with a member for every part that is there; the token is always
there. It is read from an object in which the token may also be called `operator`, or from a list of
the parts in order. A part that does not come is absent, and null in place of a part is as good as
none, except that the literal may be null.
-/

namespace Conditions

namespace Condition

/-- A part of a condition. -/
inductive Part where
  /-- The token. -/
  | op
  /-- The field that a comparison reads. -/
  | property
  /-- The literal that a comparison reads. -/
  | value
  /-- The list of conditions. -/
  | conditions
  /-- The single condition. -/
  | condition
  deriving DecidableEq

/-- The parts in the order in which a list gives them. -/
def parts : List Part := [.op, .property, .value, .conditions, .condition]

/-- The parts by the names that an object gives them. -/
def partNames : List (String × Part) :=
  [("op", .op), ("operator", .op), ("property", .property), ("value", .value),
    ("conditions", .conditions), ("condition", .condition)]

end Condition

/-! ### Writing -/

namespace Condition

/-- The member for a part that may be absent. -/
def member (name : String) : Option Json → List (String × Json)
  | none => []
  | some value => [(name, value)]

mutual

/-- The object for a condition. -/
def toJson : Condition → Json
  | ⟨op, property, value, conditions, condition⟩ =>
    .object (("op", .text op) :: (member "property" (property.map .text)
      ++ (member "value" (value.map Literal.toJson)
        ++ (member "conditions" (listToJson? conditions)
          ++ member "condition" (optionToJson condition)))))

/-- The objects for a list of conditions. -/
def listToJson : List Condition → List Json
  | [] => []
  | c :: cs => toJson c :: listToJson cs

/-- The list for conditions that may be absent. -/
def listToJson? : Option (List Condition) → Option Json
  | none => none
  | some cs => some (.array (listToJson cs))

/-- The object for a condition that may be absent. -/
def optionToJson : Option Condition → Option Json
  | none => none
  | some c => some (toJson c)

end

/-- The text of a condition. -/
def serialize (c : Condition) : String := c.toJson.compact

end Condition

/-! ### Reading -/

namespace Json

/-- The literal that a tree holds. It is read whole before a list or an object is refused. -/
def Tree.literal (room : Nat) (tree : Tree) : Except Fault Literal := do
  match Literal.ofJson? (← tree.toJson room) with
  | some literal => .ok literal
  | none => .error .mismatched

/-- The literals that a list holds, within a depth of nesting. -/
def Tree.literals : Nat → Tree → Except Fault (List Literal)
  | room + 1, .array items close => do
    let literals ← items.mapM (Tree.literal room)
    close
    .ok literals
  | 0, .array _ _ => .error .malformed
  | _, tree => .error tree.mismatch

end Json

namespace Condition

open Json (Tree Fault Document)

mutual

/-- The condition that a tree holds, within a depth of nesting. -/
def ofTree : Nat → Tree → Except Fault Condition
  | 0, tree => .error tree.noRoom
  | room + 1, tree =>
    tree.shape parts partNames (.ofToken "") fun part tree =>
      match part with
      | .op => do
        let op ← tree.string
        .ok fun c => { c with op }
      | .property => do
        let property ← tree.optional Tree.string
        .ok fun c => { c with property }
      | .value => do
        let value ← tree.literal room
        .ok fun c => { c with value := some value }
      | .conditions => do
        let conditions ← tree.optional (listOfTree room)
        .ok fun c => { c with conditions }
      | .condition => do
        let condition ← tree.optional (ofTree room)
        .ok fun c => { c with condition }

/-- The conditions that a tree holds in a list, within a depth of nesting. -/
def listOfTree : Nat → Tree → Except Fault (List Condition)
  | room + 1, .array items close => do
    let conditions ← items.mapM (ofTree room)
    close
    .ok conditions
  | 0, .array _ _ => .error .malformed
  | _, tree => .error tree.mismatch

end

/-- Reads a condition from a text. -/
def parseJson (text : String) : Except Fault Condition :=
  (Document.read text).decode (ofTree Json.nestingLimit)

end Condition

end Conditions
