import Conditions.Json.Decode
import Conditions.Json.Reader
import Conditions.Settings.Basic

/-!
# Settings in JSON

Settings are read from an object or from a list of the fields in order; what does not come keeps its
default. The order of operands is given by its name, or by an object of that name and null. All
fields are written, in order.
-/

namespace Conditions

open Json (Tree Fault)

namespace OrderingMode

/-- The mode of a name that a tree holds. -/
def ofNameTree (tree : Tree) : Except Fault OrderingMode := do
  match ofName? (← tree.string) with
  | some mode => .ok mode
  | none => .error .mismatched

/-- The mode that a tree holds, within a depth of nesting. -/
def ofTree : Nat → Tree → Except Fault OrderingMode
  | _, .missing fault => .error fault
  | _, .text leaf => ofNameTree (.text leaf)
  | 0, .object _ _ => .error .malformed
  | _ + 1, .object [] close =>
    .error (match close with
      | .error fault => fault
      | .ok () => .malformed)
  | _ + 1, .object ((name, value) :: members) close => do
    let mode ← ofNameTree name
    match value with
    | .null =>
      if members.isEmpty then do close; .ok mode else .error .malformed
    | value => .error value.mismatch
  | _, _ => .error .malformed

end OrderingMode

namespace ResolverSettings

/-- A field of the settings of a resolver. -/
inductive Field where
  /-- Whether unknown tokens are refused. -/
  | strict
  /-- Whether capitals do not count. -/
  | caseInsensitive
  /-- The aliases. -/
  | aliases
  deriving DecidableEq

/-- The fields in the order in which a list gives them. -/
def fieldOrder : List Field := [.strict, .caseInsensitive, .aliases]

/-- The fields by name. -/
def fieldNames : List (String × Field) :=
  [("strict", .strict), ("case_insensitive", .caseInsensitive), ("aliases", .aliases)]

/-- The texts that an object holds, the last under a name standing. -/
def textsOfTree : Nat → Tree → Except Fault (Fields String)
  | _ + 1, .object members close => do
    let texts ← members.mapM fun (name, value) => do .ok (← name.name, ← value.string)
    close
    .ok (Fields.ofWrites texts)
  | 0, .object _ _ => .error .malformed
  | _, tree => .error tree.mismatch

/-- The settings of a resolver that a tree holds, within a depth of nesting. -/
def ofTree : Nat → Tree → Except Fault ResolverSettings
  | 0, tree => .error tree.noRoom
  | room + 1, tree =>
    tree.shape fieldOrder fieldNames {} fun field tree =>
      match field with
      | .strict => do
        let strict ← tree.boolean
        .ok fun s => { s with strict }
      | .caseInsensitive => do
        let caseInsensitive ← tree.boolean
        .ok fun s => { s with caseInsensitive }
      | .aliases => do
        let aliases ← textsOfTree room tree
        .ok fun s => { s with aliases }

/-- The object for the settings of a resolver. -/
def toJson (s : ResolverSettings) : Json :=
  .object [("strict", .bool s.strict), ("case_insensitive", .bool s.caseInsensitive),
    ("aliases", .object (s.aliases.map fun entry => (entry.1, .text entry.2)))]

end ResolverSettings

namespace Settings

/-- A field of the settings. -/
inductive Field where
  /-- The order of operands. -/
  | ordering
  /-- The greatest depth. -/
  | maxDepth
  /-- The settings of the resolver. -/
  | resolver
  deriving DecidableEq

/-- The fields in the order in which a list gives them. -/
def fieldOrder : List Field := [.ordering, .maxDepth, .resolver]

/-- The fields by name. -/
def fieldNames : List (String × Field) :=
  [("ordering", .ordering), ("max_depth", .maxDepth), ("resolver", .resolver)]

/-- A natural number of 64 bits. -/
def naturalOfTree : Tree → Except Fault Nat
  | .number ⟨.ok (.whole i), passed⟩ =>
    if 0 ≤ i then .ok i.toNat else .error (Tree.number ⟨.ok (.whole i), passed⟩).mismatch
  | tree => .error tree.mismatch

/-- The settings that a tree holds, within a depth of nesting. -/
def ofTree : Nat → Tree → Except Fault Settings
  | 0, tree => .error tree.noRoom
  | room + 1, tree =>
    tree.shape fieldOrder fieldNames {} fun field tree =>
      match field with
      | .ordering => do
        let ordering ← OrderingMode.ofTree room tree
        .ok fun s => { s with ordering }
      | .maxDepth => do
        let maxDepth ← tree.optional naturalOfTree
        .ok fun s => { s with maxDepth }
      | .resolver => do
        let resolver ← ResolverSettings.ofTree room tree
        .ok fun s => { s with resolver }

/-- The object for settings. -/
def toJson (s : Settings) : Json :=
  .object [("ordering", .text s.ordering.name),
    ("max_depth", s.maxDepth.elim .null fun n => .number (.whole n)),
    ("resolver", s.resolver.toJson)]

end Settings

end Conditions
