import Conditions.Condition.Json
import Conditions.Yaml.Decode

/-!
# Conditions in YAML

A condition is read from a mapping of its parts, under the names that they have in JSON; a part that
is null or does not come is absent, and a null literal is a literal. Nothing at all is the condition
without parts.
-/

namespace Conditions

namespace Condition

open Yaml (Node Decode Document Fault)

mutual

/-- The condition that a node holds, within a depth of nesting. -/
def ofNode (doc : Document) : Nat → Node → Decode Condition
  | 0, node => Decode.emptyOnly doc (.ofToken "") node
  | room + 1, node =>
    Decode.shape doc partNames (.ofToken "") (fun part node => do
      match part with
      | .op =>
        let op ← Decode.text doc node
        return fun c => { c with op }
      | .property =>
        let property ← Decode.optional doc (Decode.text doc) node
        return fun c => { c with property }
      | .value =>
        let value ← Decode.scalar doc node
        return fun c => { c with value := some value.toLiteral }
      | .conditions =>
        let conditions ← Decode.optional doc (listOfNode doc room) node
        return fun c => { c with conditions }
      | .condition =>
        let condition ← Decode.optional doc (ofNode doc room) node
        return fun c => { c with condition }) node

/-- The conditions that a node holds in a list, within a depth of nesting. -/
def listOfNode (doc : Document) : Nat → Node → Decode (List Condition)
  | 0, node => Decode.emptyOnly doc [] node
  | room + 1, node => Decode.list doc (ofNode doc room) node

end

/-- Reads a condition from a text. -/
def parseYaml (text : String) : Except Fault Condition := do
  (← Document.read text).decode (ofNode · Yaml.nestingLimit ·)

end Condition

end Conditions
