import Conditions.Json.Decode
import Conditions.Json.Reader
import Conditions.Record.Basic
import Conditions.Yaml.Decode

/-!
# Records in documents

A record is read from a document that holds an object or mapping. Any value is read first; one of
another kind is then refused by the name of its kind.
-/

namespace Conditions

/-- Any value, from JSON. -/
def Json.parse (text : String) : Except Json.Fault Json :=
  (Json.Document.read text).decode (Json.Tree.toJson Json.nestingLimit)

/-- Any value, from YAML. -/
def Yaml.parse (text : String) : Except Yaml.Fault Json := do
  (← Yaml.Document.read text).decode (Yaml.Decode.json · Yaml.nestingLimit ·)

namespace Record

/-- The record that a tree holds, within a depth of nesting. -/
def ofTree (room : Nat) : Json.Tree → Except Json.Fault Record
  | .object members close => do
    match ← Json.Tree.toJson room (.object members close) with
    | .object fields => .ok (ofWrites fields)
    | _ => .error .mismatched
  | tree => .error tree.mismatch

end Record

end Conditions
