import Conditions.Json.Tree

/-!
# Values out of trees

Readers for the shapes that settings, conditions and records are made of. A reader goes through a
tree in the order of the text and stops at the first fault. Lists and objects whose content is
wanted may be nested `nestingLimit` deep; what is passed over may be nested any deeper.

A *shape* is an object with fields known by name, or a list with the same fields in order. Unknown
names are passed over, a field that comes twice does not fit, and one that does not come keeps what
it has at the start.
-/

namespace Conditions.Json

/-- How deep lists and objects may be nested. -/
def nestingLimit : Nat := 127

namespace Tree

/-- The fault of a reader that wants something else than what it finds. A leaf is read before it is
refused. -/
def mismatch : Tree → Fault
  | .missing fault | .word fault => fault
  | .number ⟨.error fault, _⟩ | .text ⟨.error fault, _⟩ => fault
  | _ => .mismatched

/-- What a reader meets that passes over a name, in the place of one. -/
def passName : Tree → Except Fault Unit
  | .text leaf => leaf.passed
  | .missing fault => .error fault
  | _ => .error .malformed

mutual

/-- What a reader meets that passes over a tree. -/
def pass : Tree → Except Fault Unit
  | .missing fault | .word fault => .error fault
  | .null | .bool _ => .ok ()
  | .number leaf => leaf.passed
  | .text leaf => leaf.passed
  | .array items close => do passItems items; close
  | .object members close => do passMembers members; close

/-- What a reader meets that passes over items. -/
def passItems : List Tree → Except Fault Unit
  | [] => .ok ()
  | item :: items => do pass item; passItems items

/-- What a reader meets that passes over members. -/
def passMembers : List (Tree × Tree) → Except Fault Unit
  | [] => .ok ()
  | (name, value) :: members => do passName name; pass value; passMembers members

end

/-- A name, in the place of one. -/
def name : Tree → Except Fault String
  | .text leaf => leaf.content
  | .missing fault => .error fault
  | _ => .error .malformed

/-- A text. -/
def string : Tree → Except Fault String
  | .text leaf => leaf.content
  | tree => .error tree.mismatch

/-- A truth value. -/
def boolean : Tree → Except Fault Bool
  | .bool b => .ok b
  | tree => .error tree.mismatch

/-- Anything that `read` accepts, or null for nothing. -/
def optional {α : Type} (read : Tree → Except Fault α) : Tree → Except Fault (Option α)
  | .null => .ok none
  | tree => (read tree).map some

/-- Any value, within a depth of nesting. -/
def toJson : Nat → Tree → Except Fault Json
  | _, .null => .ok .null
  | _, .bool b => .ok (.bool b)
  | _, .number leaf => leaf.content.map .number
  | _, .text leaf => leaf.content.map .text
  | room + 1, .array items close => do
    let values ← items.mapM (toJson room)
    close
    .ok (.array values)
  | room + 1, .object members close => do
    let values ← members.mapM fun (name, value) => do .ok (← name.name, ← toJson room value)
    close
    .ok (Json.ofWrites values)
  | 0, .array _ _ | 0, .object _ _ => .error .malformed
  | _, .missing fault | _, .word fault => .error fault

/-! ### Shapes -/

/-- An object with the fields of a shape, from the state `start`. Of `fields`, each with the names
it may come under, `seen` have come before; `read` gives the change that a field makes. -/
def readMembers {φ α : Type} [DecidableEq φ] (fields : List (String × φ))
    (read : φ → Tree → Except Fault (α → α)) (seen : List φ) (start : α) :
    List (Tree × Tree) → Except Fault α
  | [] => .ok start
  | (name, value) :: members => do
    match fields.lookup (← name.name) with
    | none =>
      pass value
      readMembers fields read seen start members
    | some field =>
      if field ∈ seen then .error .mismatched
      else
        let change ← read field value
        readMembers fields read (field :: seen) (change start) members

/-- A list with the fields of a shape in order; more items than fields are malformed. -/
def readItems {φ α : Type} (read : φ → Tree → Except Fault (α → α)) (start : α)
    (close : Except Fault Unit) : List φ → List Tree → Except Fault α
  | _, [] => do close; .ok start
  | [], _ :: _ => .error .malformed
  | field :: order, item :: items => do
    let change ← read field item
    readItems read (change start) close order items

/-- A shape with the fields in `order`, each under its `names`. -/
def shape {φ α : Type} [DecidableEq φ] (order : List φ) (names : List (String × φ)) (start : α)
    (read : φ → Tree → Except Fault (α → α)) : Tree → Except Fault α
  | .object members close => do
    let result ← readMembers names read [] start members
    close
    .ok result
  | .array items close => readItems read start close order items
  | tree => .error tree.mismatch

/-- The fault of a reader of lists or objects that has no room left for one. -/
def noRoom : Tree → Fault
  | .array _ _ | .object _ _ => .malformed
  | tree => tree.mismatch

end Tree

/-- A whole document read by `read`, with nothing after it. -/
def Document.decode {α : Type} (read : Tree → Except Fault α) (doc : Document) :
    Except Fault α := do
  let result ← read doc.tree
  doc.finish
  .ok result

end Conditions.Json
