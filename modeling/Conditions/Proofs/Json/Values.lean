import Conditions.Proofs.Json.Trees

/-!
# Texts of values

A value has many texts (`IsText`): blanks may stand between its parts, a number may be written with
any digits that give it and the characters of a text in several ways, and an object may have members
of one name, of which the last stands. How deep lists and objects may be nested is part of what is
said of a text. Each of its texts is read as the value (`IsText.reads`), so a text is one of no more
than one value (`IsText.unique`).
-/

namespace Conditions.Json

variable {v w : Json} {room : Nat} {s : List Char}

/-- A text is one of a value, within a depth of nesting. -/
inductive IsText : Json → Nat → List Char → Prop where
  /-- The word for the null value. -/
  | null {room : Nat} : IsText .null room ['n', 'u', 'l', 'l']
  /-- The word for the truth value. -/
  | bool {room : Nat} (b : Bool) : IsText (.bool b) room (boolText b)
  /-- A numeral that denotes the number. -/
  | number {room : Nat} {n : Numeral} {number : JsonNumber} {s : List Char} (numeral : n.IsText s)
    (value : n.value = .ok number) : IsText (.number number) room s
  /-- The text between quotes, escaped in any way. -/
  | text {room : Nat} {s : List Char} {text : String} (h : Unescapes s text.toList) :
    IsText (.text text) room (quote s)
  /-- A list of texts of the items. -/
  | array {room : Nat} {items : List (List Char × Json)} {s : List Char}
    (list : IsList (items.map (·.1)) s) (content : ∀ item ∈ items, IsText item.2 room item.1) :
    IsText (.array (items.map (·.2))) (room + 1) s
  /-- An object of members that go by the names of some writes and have texts of their values. -/
  | object {room : Nat} {members : List (Member × String × Json)} {s : List Char}
    (object : IsObject (members.map (·.1)) s) (names : ∀ m ∈ members, m.1.IsNamed m.2.1)
    (content : ∀ m ∈ members, IsText m.2.2 room m.1.value) :
    IsText (.ofWrites (members.map (·.2))) (room + 1) s

theorem IsText.isJson (h : v.IsText room s) : IsJson s := by
  cases h with
  | null => exact .null
  | bool b => exact .bool b
  | number numeral _ => exact .number numeral
  | text h => exact .text h.isQuoted
  | array list _ => exact .array list.enclosed list.content
  | object object _ _ => exact .object object.enclosed object.names object.content

/-! ### Trees of lists and objects -/

/-- A tree is read as a value. -/
def Tree.IsValue (room : Nat) (tree : Tree) (v : Json) : Prop := tree.toJson room = .ok v

/-- A member is read as a write of a value under a name. -/
def Tree.IsWrite (room : Nat) (m : Tree × Tree) (write : String × Json) : Prop :=
  m.1.name = .ok write.1 ∧ m.2.toJson room = .ok write.2

theorem toJson_array_eq_ok_iff {items : List Tree} {close : Except Fault Unit} :
    (Tree.array items close).toJson (room + 1) = .ok v ↔ ∃ values,
      List.Forall₂ (Tree.IsValue room) items values ∧ close = .ok () ∧ .array values = v := by
  rw [Tree.toJson]
  simp only [bind_eq_ok_iff, mapM_eq_ok_iff, Except.ok.injEq]
  exact exists_congr fun _ => and_congr_right fun _ =>
    ⟨fun ⟨_, hclose, hv⟩ => ⟨hclose, hv⟩, fun ⟨hclose, hv⟩ => ⟨(), hclose, hv⟩⟩

theorem mapM_isWrite_iff {members : List (Tree × Tree)} {writes : List (String × Json)} :
    (members.mapM fun (name, value) => do .ok (← name.name, ← value.toJson room)) =
      (.ok writes : Except Fault (List (String × Json))) ↔
        List.Forall₂ (Tree.IsWrite room) members writes := by
  have hwrite (m : Tree × Tree) (write : String × Json) :
      (do .ok (← m.1.name, ← m.2.toJson room)) = (.ok write : Except Fault (String × Json)) ↔
        Tree.IsWrite room m write := by
    simp [bind_eq_ok_iff, Tree.IsWrite, Prod.ext_iff]
  rw [mapM_eq_ok_iff]
  exact ⟨fun h => h.imp fun m write => (hwrite m write).mp,
    fun h => h.imp fun m write => (hwrite m write).mpr⟩

theorem toJson_object_eq_ok_iff {members : List (Tree × Tree)} {close : Except Fault Unit} :
    (Tree.object members close).toJson (room + 1) = .ok v ↔ ∃ writes,
      List.Forall₂ (Tree.IsWrite room) members writes ∧ close = .ok () ∧ .ofWrites writes = v := by
  rw [Tree.toJson]
  simp only [bind_eq_ok_iff, mapM_isWrite_iff, Except.ok.injEq]
  exact exists_congr fun _ => and_congr_right fun _ =>
    ⟨fun ⟨_, hclose, hv⟩ => ⟨hclose, hv⟩, fun ⟨hclose, hv⟩ => ⟨(), hclose, hv⟩⟩

/-! ### Reading texts of values -/

/-- **Each text of a value is read as the value.** -/
theorem IsText.reads (h : v.IsText room s) : Reads s (Tree.IsValue room · v) := by
  induction h with
  | @null room =>
    refine reads_null.mono ?_
    rintro _ rfl
    cases room <;> rfl
  | @bool room b =>
    refine (reads_bool b).mono ?_
    rintro _ rfl
    cases room <;> rfl
  | @number room n number s numeral value =>
    refine (reads_number numeral).mono ?_
    rintro _ rfl
    rw [value]
    cases room <;> rfl
  | @text room s text h =>
    refine (reads_text h).mono ?_
    rintro _ rfl
    cases room <;> rfl
  | array list _ ih =>
    refine (reads_array (enclosed_map_iff.mp list.enclosed)
      fun item hitem text htext => ⟨item.1, htext, ih item hitem⟩).mono ?_
    rintro _ ⟨trees, rfl, htrees⟩
    exact toJson_array_eq_ok_iff.mpr ⟨_, List.forall₂_map_right_iff.mpr htrees.flip, rfl, rfl⟩
  | @object room members s object names _ ih =>
    have hmembers : ∀ m ∈ members, ∀ text, IsMember m.1 text →
        ReadsMember text fun tree => Tree.IsWrite room tree m.2 := fun m hm text htext =>
      (readsMember_named htext (names m hm).isQuoted (ih m hm)).mono fun _ ⟨hname, hvalue⟩ =>
        ⟨hname.name_eq (names m hm), hvalue⟩
    refine (reads_object (enclosed_map_iff.mp object.enclosed) hmembers).mono ?_
    rintro _ ⟨trees, rfl, htrees⟩
    exact toJson_object_eq_ok_iff.mpr ⟨_, List.forall₂_map_right_iff.mpr htrees.flip, rfl, rfl⟩

/-- A text is one of no more than one value. -/
theorem IsText.unique (h : v.IsText room s) (h' : w.IsText room s) : v = w := by
  obtain ⟨tree, hv, hw⟩ := (h.reads.and h'.reads).exists_tree
  exact Except.ok.inj (hv.symm.trans hw)

end Conditions.Json
