import Conditions.Loading
import Conditions.Proofs.Json.Scalars
import Conditions.Proofs.Json.Trees

/-!
# Fields of records that are read

A record that is read from an object has the value of the last member of a name under that name
(`get?_of_lastNamed`), and nothing under a name that no member goes by (`get?_of_unnamed`). The
members are read as writes in the order of the text, and of the writes of a name the last stands.
-/

namespace Conditions

open Json (Tree Member IsObjectText)

variable {name : String} {m : Member} {members : List Member}

namespace Fields

variable {α : Type} {fields : Fields α}

/-- Sorted fields are there as they were written. -/
theorem find?_ofWrites_of_sorted (h : fields.Sorted) (name : String) :
    find? name (ofWrites fields) = find? name fields := by
  refine Option.ext fun value => ?_
  rw [find?_eq_some_iff (sorted_ofWrites fields), find?_eq_some_iff h]
  refine ⟨mem_of_mem_ofWrites, fun hmem => ?_⟩
  rw [← find?_eq_some_iff (sorted_ofWrites fields), find?_ofWrites, Option.map_eq_some_iff]
  cases hfind : fields.reverse.find? (·.1 = name) with
  | none =>
    have hne := List.find?_eq_none.mp hfind (name, value) (List.mem_reverse.mpr hmem)
    exact absurd (decide_eq_true rfl) hne
  | some field =>
    -- a sorted list has one field of the name
    have hname : field.1 = name := by simpa using List.find?_some hfind
    have hfield : (name, field.2) ∈ fields :=
      hname ▸ List.mem_reverse.mp (List.mem_of_find?_eq_some hfind)
    have hvalue := ((find?_eq_some_iff h).mpr hfield).symm.trans ((find?_eq_some_iff h).mpr hmem)
    exact ⟨field, rfl, Option.some.inj hvalue⟩

/-- Sorted fields are what is left of them when they are written one after another. -/
theorem ofWrites_of_sorted (h : fields.Sorted) : ofWrites fields = fields :=
  eq_of_find?_eq (sorted_ofWrites fields) h (find?_ofWrites_of_sorted h)

end Fields

namespace Record

/-- A member is the last of a name among some members. -/
inductive LastNamed (name : String) (m : Member) : List Member → Prop where
  /-- It goes by the name, and no member after it does. -/
  | here {members : List Member} (named : m.IsNamed name)
    (after : ∀ other ∈ members, ¬ other.IsNamed name) : LastNamed name m (m :: members)
  /-- It is the last of the members after the first. -/
  | later {first : Member} {members : List Member} (h : LastNamed name m members) :
    LastNamed name m (first :: members)

/-- A member is read as a write of its value under its name. -/
def IsWritten (V : Member → Tree → Prop) (room : Nat) (m : Member) (write : String × Json) : Prop :=
  (∀ name, m.IsNamed name ↔ write.1 = name) ∧ ∃ tree, V m tree ∧ tree.toJson room = .ok write.2

section Writes

variable {V : Member → Tree → Prop} {room : Nat} {writes : List (String × Json)}

theorem find?_writes_of_unnamed (hm : ∀ m ∈ members, ¬ m.IsNamed name)
    (h : List.Forall₂ (IsWritten V room) members writes) :
    writes.reverse.find? (·.1 = name) = none := by
  refine List.find?_eq_none.mpr fun write hwrite heq => ?_
  obtain ⟨m, hmem, hwritten⟩ := exists_of_mem_right h (List.mem_reverse.mp hwrite)
  exact hm m hmem ((hwritten.1 name).mpr (of_decide_eq_true heq))

theorem find?_writes_of_lastNamed (hm : LastNamed name m members)
    (h : List.Forall₂ (IsWritten V room) members writes) :
    ∃ write, IsWritten V room m write ∧ writes.reverse.find? (·.1 = name) = some write := by
  induction h with
  | nil => cases hm
  | @cons first write members writes hfirst hrest ih =>
    rw [List.reverse_cons, List.find?_append]
    cases hm with
    | here named after =>
      refine ⟨write, hfirst, ?_⟩
      rw [find?_writes_of_unnamed after hrest, Option.none_or, List.find?_singleton, if_pos]
      exact decide_eq_true ((hfirst.1 name).mp named)
    | later hlast =>
      obtain ⟨found, hfound, hfind⟩ := ih hlast
      exact ⟨found, hfound, by rw [hfind, Option.some_or]⟩

end Writes

/-! ### Records from texts -/

theorem get?_ofWrites (writes : List (String × Json)) (name : String) :
    (ofWrites writes).get? name = (writes.reverse.find? (·.1 = name)).map (·.2) :=
  Fields.find?_ofWrites writes name

/-- The fields of a record, written one after another, leave the record. -/
theorem ofWrites_fields (record : Record) : ofWrites record.fields = record := by
  obtain ⟨fields, hsorted⟩ := record
  unfold ofWrites
  simp only [Fields.ofWrites_of_sorted hsorted]

/-- Of the writes of an object that becomes a record the last of a name stands. -/
theorem get?_writes_twice (writes : List (String × Json)) (name : String) :
    (ofWrites (Fields.ofWrites writes)).get? name =
      (writes.reverse.find? (·.1 = name)).map (·.2) := by
  have hfields : ofWrites (Fields.ofWrites writes) = ofWrites writes :=
    ofWrites_fields (ofWrites writes)
  rw [hfields, get?_ofWrites]

/-- A record that is read has the fields that the members write. -/
theorem exists_writes {V : Member → Tree → Prop} {text : String} {record : Record}
    (htext : IsObjectText members text) (hvalues : ∀ m ∈ members, Json.Reads m.value (V m))
    (h : Record.parse .json text = .ok record) :
    ∃ writes, List.Forall₂ (IsWritten V 126) members writes ∧
      ∀ name, record.get? name = (writes.reverse.find? (·.1 = name)).map (·.2) := by
  obtain ⟨core, hobject, hspaced⟩ := htext
  obtain ⟨_, ⟨trees, rfl, htrees⟩, hread⟩ :=
    Json.read_spaced (hobject.reads hvalues) hspaced
  rw [String.ofList_toList] at hread
  obtain ⟨v, hparse, hrecord⟩ := bind_eq_ok_iff.mp h
  obtain ⟨v', htree, hfinish⟩ := bind_eq_ok_iff.mp
    (show (Json.Document.read text).decode (Tree.toJson 127) = .ok v from
      mapError_eq_ok_iff.mp hparse)
  rw [hread] at htree hfinish
  cases hfinish
  obtain ⟨writes, hwrites, hclose⟩ := bind_eq_ok_iff.mp
    (show (trees.mapM fun m => do .ok (← m.1.name, ← m.2.toJson 126)) >>= _ = .ok v from htree)
  cases hclose
  cases hrecord
  refine ⟨writes, forall₂_trans ?_ htrees (mapM_eq_ok_iff.mp hwrites), get?_writes_twice writes⟩
  rintro m ⟨nameTree, value⟩ ⟨written, v⟩ ⟨hname, hV⟩ hwrite
  obtain ⟨name, hnameTree, hwrite⟩ := bind_eq_ok_iff.mp hwrite
  obtain ⟨v', hvalue, hpair⟩ := bind_eq_ok_iff.mp hwrite
  cases hpair
  refine ⟨fun other => ⟨fun hother => ?_, fun heq => ?_⟩, value, hV, hvalue⟩
  · exact Except.ok.inj (hnameTree.symm.trans (hname.name_eq hother))
  · exact heq ▸ hname.isNamed hnameTree

/-- **Under a name stands the value of the last member that goes by it.** -/
theorem get?_of_lastNamed {V : Member → Tree → Prop} {text : String} {record : Record}
    (htext : IsObjectText members text) (hvalues : ∀ m ∈ members, Json.Reads m.value (V m))
    (h : Record.parse .json text = .ok record) (hm : LastNamed name m members) :
    ∃ tree v, V m tree ∧ tree.toJson 126 = .ok v ∧ record.get? name = some v := by
  obtain ⟨writes, hwrites, hget⟩ := exists_writes htext hvalues h
  obtain ⟨write, ⟨-, tree, hV, htree⟩, hfind⟩ := find?_writes_of_lastNamed hm hwrites
  refine ⟨tree, write.2, hV, htree, ?_⟩
  rw [hget, hfind]
  rfl

/-- **Under a name that no member goes by there is nothing.** -/
theorem get?_of_unnamed {text : String} {record : Record} (htext : IsObjectText members text)
    (h : Record.parse .json text = .ok record) (hm : ∀ m ∈ members, ¬ m.IsNamed name) :
    record.get? name = none := by
  obtain ⟨core, hobject, hspaced⟩ := htext
  obtain ⟨writes, hwrites, hget⟩ := exists_writes ⟨core, hobject, hspaced⟩
    (fun m hm => Json.reads_isJson (hobject.content m hm)) h
  rw [hget, find?_writes_of_unnamed hm hwrites]
  rfl

end Record

end Conditions
