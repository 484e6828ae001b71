import Conditions.Proofs.Json.Grammar
import Conditions.Proofs.Json.Numbers

/-!
# Written values are read

A value whose numbers are kept is read, from what is written for it, as a tree that differs from it
at most in its numbers (`Tree.ofJson`, `read_compact`); each number is what its numeral is read as.
What is written for a list or an object is one of its texts, that without blanks.
-/

namespace Conditions.Json

/-! ### Trees of values -/

mutual

/-- The tree that is read from what is written for a value. -/
def Tree.ofJson : Json → Tree
  | .null => .null
  | .bool b => .bool b
  | .number n => .number ⟨(numeralOf n).value, .ok ()⟩
  | .text s => .text (Leaf.ok s)
  | .array items => .array (ofItems items) (.ok ())
  | .object members => .object (ofMembers members) (.ok ())

/-- The trees that items are read as. -/
def Tree.ofItems : List Json → List Tree
  | [] => []
  | item :: items => ofJson item :: ofItems items

/-- The trees that members are read as. -/
def Tree.ofMembers : List (String × Json) → List (Tree × Tree)
  | [] => []
  | (name, value) :: members => (.text (Leaf.ok name), ofJson value) :: ofMembers members

end

/-- All numbers in a value are kept. -/
inductive AllKept : Json → Prop where
  /-- The null value holds no number. -/
  | null : AllKept .null
  /-- A truth value holds no number. -/
  | bool (b : Bool) : AllKept (.bool b)
  /-- A number holds itself. -/
  | number {n : JsonNumber} (h : Kept n) : AllKept (.number n)
  /-- A text holds no number. -/
  | text (s : String) : AllKept (.text s)
  /-- A list holds the numbers of its items. -/
  | array {items : List Json} (h : ∀ item ∈ items, AllKept item) : AllKept (.array items)
  /-- An object holds the numbers of its members. -/
  | object {members : List (String × Json)} (h : ∀ member ∈ members, AllKept member.2) :
    AllKept (.object members)

/-! ### What is written -/

/-- Texts that are written with commas between them. -/
theorem enclosed_map {α : Type} (opening closing : Char) (f : α → List Char) (a : α)
    (as : List α) : Enclosed opening closing (fun a text => text = f a) (a :: as)
      (opening :: (f a ++ ((as.map f).flatMap (',' :: ·) ++ [closing]))) :=
  .cons rfl (List.forall₂_map_right_iff.mpr (List.forall₂_same.mpr fun _ _ => rfl))

theorem writeMoreItems_eq (items : List Json) :
    writeMoreItems items = (items.map write).flatMap (',' :: ·) := by
  induction items with
  | nil => rfl
  | cons item items ih =>
    rw [writeMoreItems, ih, List.map_cons, List.flatMap_cons, List.cons_append]

/-- What is written for a list encloses what is written for its items. -/
theorem enclosed_write_array (items : List Json) :
    Enclosed '[' ']' (fun item text => text = write item) items (write (.array items)) := by
  cases items with
  | nil => exact .empty areSpaces_nil
  | cons item items =>
    have henclosed := enclosed_map '[' ']' write item items
    rwa [← writeMoreItems_eq, ← List.append_assoc] at henclosed

/-- What is written for a member. -/
def writeMember (m : String × Json) : List Char := writeText m.1 ++ ':' :: write m.2

theorem writeMoreMembers_eq (members : List (String × Json)) :
    writeMoreMembers members = (members.map writeMember).flatMap (',' :: ·) := by
  induction members with
  | nil => rfl
  | cons m members ih =>
    rw [writeMoreMembers, ih, List.map_cons, List.flatMap_cons, writeMember]
    simp

/-- What is written for an object encloses what is written for its members. -/
theorem enclosed_write_object (members : List (String × Json)) :
    Enclosed '\x7b' '\x7d' (fun m text => text = writeMember m) members
      (write (.object members)) := by
  cases members with
  | nil => exact .empty areSpaces_nil
  | cons m members =>
    have henclosed := enclosed_map '\x7b' '\x7d' writeMember m members
    rw [← writeMoreMembers_eq] at henclosed
    simpa [write, writeMembers, writeMember] using henclosed

/-- A member as it is written: its name between quotes and its value. -/
def Member.written (m : String × Json) : Member := ⟨m.1.toList.flatMap escapeChar, write m.2⟩

theorem isMember_writeMember (m : String × Json) : IsMember (.written m) (writeMember m) :=
  isMember_self _

/-! ### Whole values -/

theorem eq_ofItems {items : List Json} {trees : List Tree}
    (h : List.Forall₂ (fun item tree => tree = Tree.ofJson item) items trees) :
    trees = Tree.ofItems items := by
  induction h with
  | nil => rfl
  | cons hitem _ ih => rw [hitem, ih, Tree.ofItems]

theorem eq_ofMembers {members : List (String × Json)} {trees : List (Tree × Tree)}
    (h : List.Forall₂ (fun m tree => tree = (.text (Leaf.ok m.1), Tree.ofJson m.2)) members trees) :
    trees = Tree.ofMembers members := by
  induction h with
  | nil => rfl
  | cons hmember _ ih => rw [hmember, ih, Tree.ofMembers]

/-- A member is read from what is written for it. -/
theorem readsMember_write {m : String × Json} (h : Reads (write m.2) (· = Tree.ofJson m.2)) :
    ReadsMember (writeMember m) (· = (.text (Leaf.ok m.1), Tree.ofJson m.2)) := by
  have hname : Unescapes (m.1.toList.flatMap escapeChar) m.1.toList := unescapes_flatMap _
  refine (readsMember_named (isMember_writeMember m) hname.isQuoted h).mono ?_
  rintro ⟨name, value⟩ ⟨⟨leaf, rfl, hleaf⟩, rfl⟩
  rw [hleaf.complete hname]

/-- **A value whose numbers are kept is read from what is written for it**, its numbers as their
numerals are. -/
theorem reads_write {v : Json} (h : AllKept v) : Reads (write v) (· = Tree.ofJson v) := by
  induction h with
  | null => exact reads_null
  | bool b => exact reads_bool b
  | @number n hn =>
    have hreads := reads_number (proper_numeralOf hn).isText_text
    rwa [text_numeralOf] at hreads
  | text text => exact reads_text (unescapes_flatMap text.toList)
  | @array items h ih =>
    have hitems : ∀ item ∈ items, ∀ text, text = write item →
        ReadsSpaced text (· = Tree.ofJson item) := by
      rintro item hitem _ rfl
      exact (ih item hitem).spaced
    refine (reads_array (enclosed_write_array items) hitems).mono ?_
    rintro _ ⟨trees, rfl, htrees⟩
    rw [eq_ofItems htrees, Tree.ofJson]
  | @object members h ih =>
    have hmembers : ∀ m ∈ members, ∀ text, text = writeMember m →
        ReadsMember text (· = (.text (Leaf.ok m.1), Tree.ofJson m.2)) := by
      rintro m hm _ rfl
      exact readsMember_write (ih m hm)
    refine (reads_object (enclosed_write_object members) hmembers).mono ?_
    rintro _ ⟨trees, rfl, htrees⟩
    rw [eq_ofMembers htrees, Tree.ofJson]

/-- A document is read from a text of a value and blanks around it. -/
theorem read_spaced {core text : List Char} {P : Tree → Prop} (h : Reads core P)
    (htext : Spaced core text) : ∃ tree, P tree ∧
      Document.read (String.ofList text) = ⟨tree, .ok ()⟩ := by
  have hspaced : ReadsSpaced text P := ⟨core, htext, h⟩
  obtain ⟨tree, after, hP, hafter, hread⟩ :=
    hspaced.read (Nat.le_add_right (3 * text.length) 3) endsNumber_nil
  rw [List.append_nil, List.append_nil] at hread
  have hend : skipSpace after = [] := by
    have h := skipSpace_append hafter []
    rwa [List.append_nil] at h
  refine ⟨tree, hP, ?_⟩
  simp only [Document.read, String.toList_ofList, hread]
  rw [readEnd, if_pos hend]

/-- **A document is read from what is written for a value.** -/
theorem read_compact {v : Json} (h : AllKept v) :
    Document.read v.compact = ⟨Tree.ofJson v, .ok ()⟩ := by
  obtain ⟨tree, rfl, hread⟩ := read_spaced (reads_write h) (.self _)
  exact hread

end Conditions.Json
