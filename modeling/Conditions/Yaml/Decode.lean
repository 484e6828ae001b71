import Conditions.Yaml.Composition
import Conditions.Yaml.ScalarValue

/-!
# Values out of nodes

Readers for the shapes that settings, conditions and records are made of. Lists and mappings whose
content is wanted may be nested `nestingLimit` deep. An alias is followed to its node where it is
read; in one reading a document may be followed `jumpsPerItem` times as often as it has scalars,
aliases and ends of collections. Where a list or a shape is wanted an empty plain scalar is as good
as an empty one.
-/

namespace Conditions.Yaml

/-- How deep lists and mappings may be nested. -/
def nestingLimit : Nat := 128

/-- How often aliases may be followed, for each item of a document. -/
def jumpsPerItem : Nat := 100

/-- A reader that may still follow some number of aliases. -/
abbrev Decode (α : Type) := StateT Nat (Except Fault) α

namespace Decode

/-- The node that a node stands for. -/
def follow (doc : Document) : Node → Decode Node
  | .reference anchor => do
    match ← get, doc.node? anchor with
    | jumps + 1, some node => set jumps; return node
    | 0, _ => throw .expansion
    | _, none => throw .anchor
  | node => return node

/-- Whether a scalar is as good as an empty list or mapping. -/
def isNothing (s : Scalar) : Bool := s.text == "" && s.style == .plain

/-- A text, whatever the scalar would stand for otherwise. -/
def text (doc : Document) (node : Node) : Decode String := do
  match ← follow doc node with
  | .scalar s => return s.text
  | _ => throw .mismatched

/-- Whether a scalar is plain, or lines under the tag of its kind. -/
def admits (tag : String) (s : Scalar) : Bool :=
  s.style == .plain || (s.style == .literal && s.tag == some tag)

/-- A truth value. -/
def boolean (doc : Document) (node : Node) : Decode Bool := do
  match ← follow doc node with
  | .scalar s =>
    match (boolWord? s.text).filter fun _ => admits boolTag s with
    | some b => return b
    | none => throw .mismatched
  | _ => throw .mismatched

/-- A natural number of 64 bits. -/
def natural (doc : Document) (node : Node) : Decode Nat := do
  match ← follow doc node with
  | .scalar s =>
    if admits intTag s && s.text.toList.head? != some '-' then
      match (wholeValue? s.text.toList).filter fitsWord with
      | some i => return i.toNat
      | none => throw .mismatched
    else throw .mismatched
  | _ => throw .mismatched

/-- Whether a scalar stands for nothing where something may be absent. -/
def isAbsent (s : Scalar) : Except Fault Bool :=
  if s.style ≠ .plain then .ok false
  else
    match s.tag with
    | none => .ok (s.text == "" || isNullWord s.text)
    | some tag =>
      if tag ≠ nullTag then .ok false
      else if isNullWord s.text then .ok true else .error .mismatched

/-- Anything that `read` accepts, or nothing. -/
def optional {α : Type} (doc : Document) (read : Node → Decode α) (node : Node) :
    Decode (Option α) := do
  match ← follow doc node with
  | .scalar s => if ← isAbsent s then return none else return some (← read (.scalar s))
  | node => return some (← read node)

/-- One of some names, as a text or as a local tag before nothing. -/
def choice {α : Type} (doc : Document) (ofName : String → Option α) (node : Node) :
    Decode α := do
  match ← follow doc node with
  | .scalar s =>
    match localName? s.tag with
    | some name =>
      if s.style == .plain && (s.text == "" || isNullWord s.text) then orMismatch (ofName name)
      else throw .mismatched
    | none => orMismatch (ofName s.text)
  | _ => throw .mismatched

/-- A scalar of any kind. -/
def scalar (doc : Document) (node : Node) : Decode ScalarValue := do
  match ← follow doc node with
  | .scalar s => s.value
  | _ => throw .mismatched

/-- Refuses a local tag. -/
def refuseLocal (tag : Option String) : Decode Unit :=
  if (localName? tag).isSome then throw .mismatched else return ()

/-- Any value, within a depth of nesting. -/
def json (doc : Document) : Nat → Node → Decode Json
  | 0, node => do
    match ← follow doc node with
    | .scalar s => return (← s.value).toJson
    | _ => throw .nesting
  | room + 1, node => do
    match ← follow doc node with
    | .scalar s => return (← s.value).toJson
    | .sequence tag items =>
      refuseLocal tag
      return .array (← items.mapM (json doc room))
    | .mapping tag members =>
      refuseLocal tag
      let values ← members.mapM fun (key, value) => do
        return (← text doc key, ← json doc room value)
      return Json.ofWrites values
    | .reference _ => throw .anchor

/-! ### Shapes -/

/-- The members of a mapping with texts for keys and values. -/
def textMembers (doc : Document) (node : Node) : Decode (List (String × String)) := do
  match ← follow doc node with
  | .mapping _ members =>
    members.mapM fun (key, value) => do return (← text doc key, ← text doc value)
  | .scalar s => if isNothing s then return [] else throw .mismatched
  | _ => throw .mismatched

/-- The items of a list. -/
def list {α : Type} (doc : Document) (read : Node → Decode α) (node : Node) :
    Decode (List α) := do
  match ← follow doc node with
  | .sequence _ items => items.mapM read
  | .scalar s => if isNothing s then return [] else throw .mismatched
  | _ => throw .mismatched

/-- The members of a shape, from the state `start`. Of `fields`, each with the names it may come
under, `seen` have come before; `read` gives the change that a field makes. -/
def members {φ α : Type} [DecidableEq φ] (doc : Document) (fields : List (String × φ))
    (read : φ → Node → Decode (α → α)) (seen : List φ) (start : α) :
    List (Node × Node) → Decode α
  | [] => return start
  | (key, value) :: rest => do
    match fields.lookup (← text doc key) with
    | none => members doc fields read seen start rest
    | some field =>
      if field ∈ seen then throw .duplicate
      let change ← read field value
      members doc fields read (field :: seen) (change start) rest

/-- A mapping with the fields of a shape, each under its `names`. -/
def shape {φ α : Type} [DecidableEq φ] (doc : Document) (names : List (String × φ)) (start : α)
    (read : φ → Node → Decode (α → α)) (node : Node) : Decode α := do
  match ← follow doc node with
  | .mapping _ rest => members doc names read [] start rest
  | .scalar s => if isNothing s then return start else throw .mismatched
  | _ => throw .mismatched

/-- A scalar that is as good as an empty collection, where there is no room for any other. -/
def emptyOnly {α : Type} (doc : Document) (empty : α) (node : Node) : Decode α := do
  match ← follow doc node with
  | .scalar s => if isNothing s then return empty else throw .mismatched
  | _ => throw .nesting

end Decode

/-- What a reader makes of the root of a document. -/
def Document.decode {α : Type} (doc : Document) (read : Document → Node → Decode α) :
    Except Fault α :=
  (read doc doc.root).run' (jumpsPerItem * doc.size)

end Conditions.Yaml
