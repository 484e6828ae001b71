import Conditions.Json.Value

/-!
# Records

The data that conditions are asked of: named values, none of which is a path into another. A field
that holds null is not the same as one that is absent.
-/

namespace Conditions

/-- Fields with values, in the order of their names. -/
structure Record where
  /-- The fields. -/
  fields : Fields Json
  /-- Every name comes once, in order. -/
  sorted : fields.Sorted

namespace Record

/-- The record without fields. -/
def empty : Record := ⟨[], List.Pairwise.nil⟩

/-- The record that a list of writes leaves, the last write of a field standing. -/
def ofWrites (writes : List (String × Json)) : Record :=
  ⟨Fields.ofWrites writes, Fields.sorted_ofWrites writes⟩

/-- The value of a field, if there is one. -/
def get? (record : Record) (name : String) : Option Json := record.fields.find? name

/-- Writes a field. -/
def insert (record : Record) (name : String) (value : Json) : Record :=
  ⟨record.fields.put name value, Fields.sorted_put record.sorted name value⟩

/-- Writes a field, and gives the value that stood there before, if one did. -/
def exchange (record : Record) (name : String) (value : Json) : Option Json × Record :=
  have hsorted : (record.fields.exchange name value).2.Sorted := by
    rw [Fields.exchange_snd]
    exact Fields.sorted_put record.sorted name value
  ((record.fields.exchange name value).1, ⟨(record.fields.exchange name value).2, hsorted⟩)

/-- The names of the fields, in order. -/
def keys (record : Record) : List String := record.fields.map (·.1)

/-- The number of fields. -/
def size (record : Record) : Nat := record.fields.length

/-- Whether there are no fields. -/
def isEmpty (record : Record) : Bool := record.fields.isEmpty

/-- The record as an object. -/
def toJson (record : Record) : Json := .object record.fields

/-- The record that an object is; any other value is answered with its kind. -/
def ofJson : Json → Except String Record
  | .object members => .ok (ofWrites members)
  | value => .error value.kindName

/-! ### What a write changes -/

@[simp] theorem get?_insert_self (record : Record) (name : String) (value : Json) :
    (record.insert name value).get? name = some value :=
  Fields.find?_put_self name value record.fields

theorem get?_insert_of_ne (record : Record) {name other : String} (h : other ≠ name)
    (value : Json) : (record.insert name value).get? other = record.get? other :=
  Fields.find?_put_of_ne h value record.fields

@[simp] theorem exchange_fst (record : Record) (name : String) (value : Json) :
    (record.exchange name value).1 = record.get? name :=
  Fields.exchange_fst record.sorted name value

@[simp] theorem exchange_snd (record : Record) (name : String) (value : Json) :
    (record.exchange name value).2 = record.insert name value := by
  simp only [exchange, insert, Fields.exchange_snd]

end Record

end Conditions
