import Conditions.Json.Decode
import Conditions.Proofs.Json.Trees

/-!
# What readers give

Many texts are not read at all, so what is said of a reader is said of whatever it gives
(`Ensures`).

All numbers that a reader finds in a text are kept (`numbersKept_read`), since a numeral past the
largest finite number has no value; so are those of a value that is read (`ensures_toJson`). A shape
is made from its start by one change after another. What holds of the start, and is kept by every
change that a part may ask for, holds of the shape (`ensures_shape`).
-/

namespace Conditions

namespace Json

/-! ### Numbers -/

/-- A numeral denotes a number that is kept, if it denotes one. -/
theorem ensures_value (n : Numeral) : Ensures n.value Kept := by
  unfold Numeral.value
  split
  · next i hi =>
    refine ensures_ok ?_
    unfold Numeral.toWhole? at hi
    dsimp only at hi
    split at hi
    · cases hi
    · split at hi
      · split at hi
        · cases hi
          exact ⟨by omega, by omega⟩
        · cases hi
      · split at hi
        · cases hi
          exact ⟨by omega, by omega⟩
        · cases hi
  · split
    · next hfinite => exact ensures_ok hfinite
    · exact ensures_error _

theorem ensures_readNumber (s : List Char) : Ensures (readNumber s).1.content Kept := by
  unfold readNumber
  split
  · next n rest _ => exact ensures_value n
  · exact ensures_error _

/-- A number that is kept is finite. -/
theorem isFinite_toBinary64 {n : JsonNumber} (h : Kept n) : n.toBinary64.isFinite = true := by
  cases n with
  | real x => exact h
  | whole i =>
    obtain ⟨hlow, hhigh⟩ := h
    have hbits : i.natAbs < 2 ^ 64 := by omega
    have hrank : Binary64.rankOfRatio i.natAbs 1 < Binary64.infinityRank :=
      Binary64.rankOfRatio_lt_infinityRank (by decide) hbits
    have hsign : Binary64.infinityRank < Binary64.signBit := by decide
    rw [JsonNumber.toBinary64, Binary64.ofInt, Binary64.ofRatio, Binary64.isFinite,
      Binary64.rank_ofRank (Nat.lt_trans hrank hsign)]
    exact decide_eq_true hrank

/-! ### Trees -/

/-- All numbers of a tree that have a value are kept. -/
inductive Tree.NumbersKept : Tree → Prop where
  /-- Where nothing stands there is no number. -/
  | missing (fault : Fault) : NumbersKept (.missing fault)
  /-- The null value holds no number. -/
  | null : NumbersKept .null
  /-- A truth value holds no number. -/
  | bool (b : Bool) : NumbersKept (.bool b)
  /-- A broken word holds no number. -/
  | word (fault : Fault) : NumbersKept (.word fault)
  /-- A number holds itself. -/
  | number {leaf : Leaf JsonNumber} (h : Ensures leaf.content Kept) : NumbersKept (.number leaf)
  /-- A text holds no number. -/
  | text (leaf : Leaf String) : NumbersKept (.text leaf)
  /-- A list holds the numbers of its items. -/
  | array {items : List Tree} (h : ∀ item ∈ items, NumbersKept item)
    (close : Except Fault Unit) : NumbersKept (.array items close)
  /-- An object holds the numbers of its members. -/
  | object {members : List (Tree × Tree)} (h : ∀ member ∈ members, NumbersKept member.2)
    (close : Except Fault Unit) : NumbersKept (.object members close)

theorem numbersKept_readWord {tree : Tree} (h : tree.NumbersKept) (letters s : List Char) :
    (readWord letters tree s).1.NumbersKept := by
  unfold readWord
  split
  · exact h
  · split
    · exact .word _
    · exact .word _

/-- The readers read numbers that are kept, with some fuel. -/
structure ReadsKept (fuel : Nat) : Prop where
  /-- So the tree at the head of a text. -/
  tree (s : List Char) : (readTree fuel s).1.NumbersKept
  /-- So the items of a list. -/
  items (s : List Char) : ∀ item ∈ (readItems fuel s).1, item.NumbersKept
  /-- So the items after an item. -/
  moreItems (s : List Char) : ∀ item ∈ (readMoreItems fuel s).1, item.NumbersKept
  /-- So the members of an object. -/
  members (s : List Char) : ∀ member ∈ (readMembers fuel s).1, member.2.NumbersKept
  /-- So the members after a member. -/
  moreMembers (s : List Char) : ∀ member ∈ (readMoreMembers fuel s).1, member.2.NumbersKept
  /-- So the members from a name on. -/
  member (s : List Char) : ∀ member ∈ (readMember fuel s).1, member.2.NumbersKept

theorem readsKept_zero : ReadsKept 0 where
  tree _ := .missing _
  items _ _ h := by cases h
  moreItems _ _ h := by cases h
  members _ _ h := by cases h
  moreMembers _ _ h := by cases h
  member _ _ h := by cases h

namespace ReadsKept

variable {fuel : Nat} (h : ReadsKept fuel)
include h

theorem readTree_succ (s : List Char) : (readTree (fuel + 1) s).1.NumbersKept := by
  rw [readTree]
  split
  case h_1 => exact .missing _
  case h_2 => exact numbersKept_readWord .null _ _
  case h_3 => exact numbersKept_readWord (.bool true) _ _
  case h_4 => exact numbersKept_readWord (.bool false) _ _
  case h_5 => exact .text _
  case h_6 rest _ => exact .array (h.items rest) _
  case h_7 rest _ => exact .object (h.members rest) _
  case h_8 =>
    split
    · exact .number (ensures_readNumber _)
    · exact .missing _

/-- An item and the items after it. -/
theorem cons_moreItems (s rest : List Char) :
    ∀ item ∈ (readTree fuel s).1 :: (readMoreItems fuel rest).1, item.NumbersKept :=
  List.forall_mem_cons.mpr ⟨h.tree s, h.moreItems rest⟩

theorem readItems_succ (s : List Char) :
    ∀ item ∈ (readItems (fuel + 1) s).1, item.NumbersKept := by
  rw [readItems]
  split
  · exact List.forall_mem_nil _
  · exact List.forall_mem_nil _
  · exact h.cons_moreItems _ _

theorem readMoreItems_succ (s : List Char) :
    ∀ item ∈ (readMoreItems (fuel + 1) s).1, item.NumbersKept := by
  rw [readMoreItems]
  split
  · exact List.forall_mem_nil _
  · exact List.forall_mem_nil _
  · exact h.cons_moreItems _ _
  · exact List.forall_mem_nil _

theorem readMembers_succ (s : List Char) :
    ∀ member ∈ (readMembers (fuel + 1) s).1, member.2.NumbersKept := by
  rw [readMembers]
  split
  · exact List.forall_mem_nil _
  · exact List.forall_mem_nil _
  · exact h.member _

theorem readMoreMembers_succ (s : List Char) :
    ∀ member ∈ (readMoreMembers (fuel + 1) s).1, member.2.NumbersKept := by
  rw [readMoreMembers]
  split
  · exact List.forall_mem_nil _
  · exact List.forall_mem_nil _
  · exact h.member _
  · exact List.forall_mem_nil _

theorem readMember_succ (s : List Char) :
    ∀ member ∈ (readMember (fuel + 1) s).1, member.2.NumbersKept := by
  rw [readMember]
  dsimp only
  split
  · split
    · exact List.forall_mem_cons.mpr ⟨h.tree _, h.moreMembers _⟩
    · exact List.forall_mem_singleton.mpr (.missing _)
  · exact List.forall_mem_singleton.mpr (.missing _)

/-- One more step of each reader. -/
theorem succ : ReadsKept (fuel + 1) where
  tree := h.readTree_succ
  items := h.readItems_succ
  moreItems := h.readMoreItems_succ
  members := h.readMembers_succ
  moreMembers := h.readMoreMembers_succ
  member := h.readMember_succ

end ReadsKept

theorem readsKept (fuel : Nat) : ReadsKept fuel := by
  induction fuel with
  | zero => exact readsKept_zero
  | succ fuel ih => exact ih.succ

/-- **The numbers of a text are kept**, those apart that are too large to have a value. -/
theorem numbersKept_read (text : String) : (Document.read text).tree.NumbersKept := by
  unfold Document.read
  exact (readsKept _).tree _

namespace Tree

/-! ### Values -/

/-- A value that is read holds only numbers that are kept. -/
theorem ensures_toJson {tree : Tree} (h : tree.NumbersKept) (room : Nat) :
    Ensures (tree.toJson room) AllKept := by
  induction h generalizing room with
  | null => cases room <;> exact ensures_ok .null
  | bool b => cases room <;> exact ensures_ok (.bool b)
  | number hleaf => cases room <;> exact Ensures.map fun n hn => .number (hleaf n hn)
  | text leaf => cases room <;> exact Ensures.map fun s _ => .text s
  | missing | word => cases room <;> exact ensures_error _
  | array _ close ih =>
    cases room with
    | zero => exact ensures_error _
    | succ room =>
      refine (ensures_mapM fun item hitem => ih item hitem room).bind fun values hvalues => ?_
      exact ensures_checked close (.array hvalues)
  | @object members _ close ih =>
    cases room with
    | zero => exact ensures_error _
    | succ room =>
      have hmember : ∀ member ∈ members, Ensures
          (do .ok (← member.1.name, ← member.2.toJson room) : Except Fault (String × Json))
          fun written => AllKept written.2 := by
        intro member hmember
        refine (ensures_true member.1.name).bind fun name _ => ?_
        exact (ih member hmember room).bind fun value hvalue => ensures_ok hvalue
      refine (ensures_mapM hmember).bind fun writes hwrites => ensures_checked close ?_
      exact .object fun field hfield => hwrites field (Fields.mem_of_mem_ofWrites hfield)

/-! ### Shapes -/

/-- The trees in a tree that a reader of shapes may take as parts. -/
def children : Tree → List Tree
  | .array items _ => items
  | .object members _ => members.map (·.2)
  | _ => []

theorem NumbersKept.children {tree : Tree} (h : tree.NumbersKept) :
    ∀ part ∈ tree.children, part.NumbersKept := by
  cases h with
  | array h => exact h
  | object h => exact List.forall_mem_map.mpr h
  | missing | null | bool | word | number | text => exact List.forall_mem_nil _

section Shape

variable {φ α : Type} [DecidableEq φ] {P : α → Prop} {read : φ → Tree → Except Fault (α → α)}

/-- The changes that a tree asks for, as whatever field it is read, keep a property. -/
def ChangesKeep (read : φ → Tree → Except Fault (α → α)) (P : α → Prop) (tree : Tree) : Prop :=
  ∀ field, Ensures (read field tree) fun change => ∀ a, P a → P (change a)

theorem ensures_readMembers (fields : List (String × φ)) {members : List (Tree × Tree)}
    (h : ∀ member ∈ members, ChangesKeep read P member.2) (seen : List φ) {start : α}
    (hstart : P start) : Ensures (readMembers fields read seen start members) P := by
  induction members generalizing seen start with
  | nil => exact ensures_ok hstart
  | cons member members ih =>
    obtain ⟨name, value⟩ := member
    obtain ⟨hvalue, hmembers⟩ := List.forall_mem_cons.mp h
    rw [readMembers]
    refine (ensures_true name.name).bind fun text _ => ?_
    split
    · exact (ensures_true value.pass).bind fun _ _ => ih hmembers seen hstart
    · next field _ =>
      split
      · exact ensures_error _
      · refine (hvalue field).bind fun change hchange => ?_
        exact ih hmembers (field :: seen) (hchange start hstart)

omit [DecidableEq φ] in
theorem ensures_readItems (close : Except Fault Unit) (order : List φ) {items : List Tree}
    (h : ∀ item ∈ items, ChangesKeep read P item) {start : α} (hstart : P start) :
    Ensures (readItems read start close order items) P := by
  induction items generalizing order start with
  | nil =>
    rw [readItems]
    exact ensures_checked close hstart
  | cons item items ih =>
    obtain ⟨hitem, hitems⟩ := List.forall_mem_cons.mp h
    cases order with
    | nil => exact ensures_error _
    | cons field order =>
      refine (hitem field).bind fun change hchange => ?_
      exact ih order hitems (hchange start hstart)

/-- **What the start of a shape has and all changes keep, the shape has.** -/
theorem ensures_shape (order : List φ) (fields : List (String × φ)) {tree : Tree} {start : α}
    (h : ∀ part ∈ tree.children, ChangesKeep read P part) (hstart : P start) :
    Ensures (tree.shape order fields start read) P := by
  cases tree with
  | object members close =>
    have hmembers := ensures_readMembers fields (List.forall_mem_map.mp h) [] hstart
    exact hmembers.bind fun a ha => ensures_checked close ha
  | array items close => exact ensures_readItems close order h hstart
  | missing | null | bool | word | number | text => exact ensures_error _

end Shape

theorem ensures_optional {α : Type} {P : α → Prop} {read : Tree → Except Fault α} {tree : Tree}
    (h : Ensures (read tree) P) :
    Ensures (tree.optional read) fun found => ∀ a, found = some a → P a := by
  have hsome : Ensures ((read tree).map some) fun found => ∀ a, found = some a → P a := by
    refine Ensures.map fun a ha => ?_
    rintro _ ⟨⟩
    exact h a ha
  cases tree with
  | null => exact ensures_ok nofun
  | missing | bool | word | number | text | array | object => exact hsome

end Tree

theorem ensures_decode {α : Type} {P : α → Prop} {read : Tree → Except Fault α} {doc : Document}
    (h : Ensures (read doc.tree) P) : Ensures (doc.decode read) P :=
  h.bind fun _ ha => ensures_checked doc.finish ha

end Json

end Conditions
