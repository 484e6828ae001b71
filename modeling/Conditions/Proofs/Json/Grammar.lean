import Conditions.Json.Decode
import Conditions.Proofs.Json.Reading
import Conditions.Proofs.Json.Texts

/-!
# The grammar of documents

The texts of values, given apart from the reader (`IsJson`). Whatever such a text stands for, it can
be passed over (`reads_isJson`): numbers too large to have a value and halves of surrogate pairs in
texts are part of the grammar.
-/

namespace Conditions.Json

variable {c : Char} {s text rest : List Char} {fuel : Nat}

/-! ### Leaves -/

/-- A word at the head of a text is read as what it stands for. -/
theorem readWord_append (letters : List Char) (tree : Tree) (rest : List Char) :
    readWord letters tree (letters ++ rest) = (tree, rest) := by
  unfold readWord
  rw [if_pos (by simp), List.drop_left]

theorem reads_null : Reads ['n', 'u', 'l', 'l'] (· = .null) := by
  refine ⟨⟨_, _, rfl, by decide, by decide⟩, fun fuel rest hfuel _ => ?_⟩
  obtain ⟨fuel, rfl⟩ := Nat.exists_eq_add_one.mpr (Nat.lt_of_lt_of_le (by decide) hfuel)
  exact ⟨_, rfl, readWord_append ['u', 'l', 'l'] .null rest⟩

/-- The word for a truth value. -/
def boolText (b : Bool) : List Char := if b then ['t', 'r', 'u', 'e'] else ['f', 'a', 'l', 's', 'e']

theorem reads_bool (b : Bool) : Reads (boolText b) (· = .bool b) := by
  cases b with
  | true =>
    refine ⟨⟨_, _, rfl, by decide, by decide⟩, fun fuel rest hfuel _ => ?_⟩
    obtain ⟨fuel, rfl⟩ := Nat.exists_eq_add_one.mpr (Nat.lt_of_lt_of_le (by decide) hfuel)
    exact ⟨_, rfl, readWord_append ['r', 'u', 'e'] (.bool true) rest⟩
  | false =>
    refine ⟨⟨_, _, rfl, by decide, by decide⟩, fun fuel rest hfuel _ => ?_⟩
    obtain ⟨fuel, rfl⟩ := Nat.exists_eq_add_one.mpr (Nat.lt_of_lt_of_le (by decide) hfuel)
    exact ⟨_, rfl, readWord_append ['a', 'l', 's', 'e'] (.bool false) rest⟩

theorem isSpace_of_number (h : c = '-' ∨ c.isDigit = true) : isSpace c = false := by
  rw [isSpace]
  rcases h with rfl | h
  · decide
  · simp only [Bool.or_eq_false_iff, decide_eq_false_iff_not]
    refine ⟨⟨⟨?_, ?_⟩, ?_⟩, ?_⟩ <;>
    · rintro rfl
      cases h

theorem readTree_number (h : c = '-' ∨ c.isDigit = true) :
    readTree (fuel + 1) (c :: s) =
      (.number (readNumber (c :: s)).1, (readNumber (c :: s)).2) := by
  rw [readTree, skipSpace_cons (isSpace_of_number h)]
  split <;> rename_i heq <;> cases heq
  case h_8 => rw [if_pos (by simpa using h)]
  -- no other value begins with a sign or a digit
  all_goals exact absurd h (by decide)

/-- A number is read as what its numeral denotes. -/
theorem reads_number {n : Numeral} (h : n.IsText text) :
    Reads text (· = .number ⟨n.value, .ok ()⟩) := by
  obtain ⟨c, s, rfl, hc⟩ := h.head
  refine ⟨⟨c, s, rfl, isSpace_of_number hc, ?_⟩, fun fuel rest hfuel hrest => ⟨_, rfl, ?_⟩⟩
  · rintro rfl
    exact absurd hc (by decide)
  · obtain ⟨fuel, rfl⟩ := Nat.exists_eq_add_one.mpr (Nat.lt_of_lt_of_le (Nat.succ_pos _) hfuel)
    rw [List.cons_append, readTree_number hc, readNumber, ← List.cons_append,
      readNumeral_text h hrest]

/-- A text between quotes. -/
def quote (s : List Char) : List Char := '"' :: (s ++ ['"'])

/-- What a text between quotes is read as: the text that it stands for, if its escapes make up
characters, and no other. -/
structure IsLeafOf (s : List Char) (leaf : Leaf String) : Prop where
  /-- The text that it stands for is read. -/
  complete {text : String} : Unescapes s text.toList → leaf = Leaf.ok text
  /-- It stands for the text that is read. -/
  sound : Ensures leaf.content fun text => Unescapes s text.toList
  /-- It can be passed over. -/
  passed : leaf.passed = .ok ()

theorem readText_isLeafOf (h : IsQuoted s) (rest : List Char) :
    ∃ leaf, IsLeafOf s leaf ∧ readText (s ++ '"' :: rest) = (leaf, rest) := by
  obtain ⟨leaf, hsound, hpassed, hread⟩ := readText_isQuoted h rest
  refine ⟨leaf, ⟨fun htext => ?_, hsound, hpassed⟩, hread⟩
  have hleaf := congrArg Prod.fst (hread.symm.trans (readText_unescapes htext rest))
  rwa [String.ofList_toList] at hleaf

/-- A text between quotes is read as what it stands for. -/
theorem reads_quote (h : IsQuoted s) :
    Reads (quote s) fun tree => ∃ leaf, tree = .text leaf ∧ IsLeafOf s leaf := by
  refine ⟨⟨_, _, rfl, by decide, by decide⟩, fun fuel rest hfuel _ => ?_⟩
  obtain ⟨leaf, hleaf, hread⟩ := readText_isLeafOf h rest
  obtain ⟨fuel, rfl⟩ := Nat.exists_eq_add_one.mpr (Nat.lt_of_lt_of_le (Nat.succ_pos _) hfuel)
  refine ⟨_, ⟨leaf, rfl, hleaf⟩, ?_⟩
  rw [quote, List.cons_append, List.append_assoc, List.singleton_append, readTree_quote, hread]

theorem reads_text {text : String} (h : Unescapes s text.toList) :
    Reads (quote s) (· = .text (Leaf.ok text)) := by
  refine (reads_quote h.isQuoted).mono ?_
  rintro _ ⟨leaf, rfl, hleaf⟩
  rw [hleaf.complete h]

/-! ### Members -/

/-- A member goes by a name, however it is written. -/
def Member.IsNamed (m : Member) (name : String) : Prop := Unescapes m.name name.toList

/-- A tree is what the name of a member is read as. -/
def NameRead (m : Member) (tree : Tree) : Prop := ∃ leaf, tree = .text leaf ∧ IsLeafOf m.name leaf

section Names

variable {m : Member} {tree : Tree} {name : String}

theorem NameRead.name_eq (h : NameRead m tree) (hname : m.IsNamed name) : tree.name = .ok name := by
  obtain ⟨leaf, rfl, hleaf⟩ := h
  rw [Tree.name, hleaf.complete hname]
  rfl

theorem NameRead.isNamed (h : NameRead m tree) (hname : tree.name = .ok name) : m.IsNamed name := by
  obtain ⟨leaf, rfl, hleaf⟩ := h
  exact hleaf.sound name hname

theorem NameRead.passName_eq (h : NameRead m tree) : tree.passName = .ok () := by
  obtain ⟨leaf, rfl, hleaf⟩ := h
  exact hleaf.passed

end Names

/-- A member is read as its name and its value are. -/
theorem readsMember_named {m : Member} (h : IsMember m text) (hname : IsQuoted m.name)
    {V : Tree → Prop} (hvalue : Reads m.value V) :
    ReadsMember text fun member => NameRead m member.1 ∧ V member.2 := by
  refine readsMember h (fun rest => ?_) hvalue
  obtain ⟨leaf, hleaf, hread⟩ := readText_isLeafOf hname rest
  exact ⟨leaf, hleaf, hleaf.passed, hread⟩

/-! ### Values -/

/-- A text is a document. -/
inductive IsJson : List Char → Prop where
  /-- The word for the null value. -/
  | null : IsJson ['n', 'u', 'l', 'l']
  /-- The word for a truth value. -/
  | bool (b : Bool) : IsJson (boolText b)
  /-- A number. -/
  | number {n : Numeral} {text : List Char} (h : n.IsText text) : IsJson text
  /-- A text between quotes. -/
  | text {s : List Char} (h : IsQuoted s) : IsJson (quote s)
  /-- A list. -/
  | array {items : List (List Char)} {text : List Char} (list : Enclosed '[' ']' Spaced items text)
    (content : ∀ item ∈ items, IsJson item) : IsJson text
  /-- An object. -/
  | object {members : List Member} {text : List Char}
    (object : Enclosed '\x7b' '\x7d' IsMember members text)
    (names : ∀ m ∈ members, IsQuoted m.name) (content : ∀ m ∈ members, IsJson m.value) :
    IsJson text

theorem passItems_of_forall {items : List Tree} (h : ∀ item ∈ items, item.pass = .ok ()) :
    Tree.passItems items = .ok () := by
  induction items with
  | nil => rfl
  | cons item items ih =>
    obtain ⟨hitem, hitems⟩ := List.forall_mem_cons.mp h
    rw [Tree.passItems, hitem, ok_bind, ih hitems]

theorem passMembers_of_forall {members : List (Tree × Tree)}
    (h : ∀ m ∈ members, m.1.passName = .ok () ∧ m.2.pass = .ok ()) :
    Tree.passMembers members = .ok () := by
  induction members with
  | nil => rfl
  | cons m members ih =>
    obtain ⟨⟨hname, hvalue⟩, hmembers⟩ := List.forall_mem_cons.mp h
    rw [Tree.passMembers, hname, ok_bind, hvalue, ok_bind, ih hmembers]

/-- **A document can be passed over.** -/
theorem reads_isJson (h : IsJson text) : Reads text fun tree => tree.pass = .ok () := by
  induction h with
  | null => exact reads_null.mono fun _ h => h ▸ rfl
  | bool b => exact (reads_bool b).mono fun _ h => h ▸ rfl
  | number h => exact (reads_number h).mono fun _ h => h ▸ rfl
  | text h =>
    refine (reads_quote h).mono ?_
    rintro _ ⟨leaf, rfl, hleaf⟩
    exact hleaf.passed
  | array list _ ih =>
    refine (reads_array list fun item hitem text htext => ⟨item, htext, ih item hitem⟩).mono ?_
    rintro _ ⟨trees, rfl, htrees⟩
    have hpass : ∀ tree ∈ trees, tree.pass = .ok () := fun tree htree =>
      have ⟨_, _, hpass⟩ := exists_of_mem_right htrees htree
      hpass
    rw [Tree.pass, passItems_of_forall hpass]
    rfl
  | object object names _ ih =>
    refine (reads_object object fun m hm text htext =>
      readsMember_named htext (names m hm) (ih m hm)).mono ?_
    rintro _ ⟨trees, rfl, htrees⟩
    have hpass : ∀ tree ∈ trees, tree.1.passName = .ok () ∧ tree.2.pass = .ok () :=
      fun tree htree =>
        have ⟨_, _, hname, hvalue⟩ := exists_of_mem_right htrees htree
        ⟨hname.passName_eq, hvalue⟩
    rw [Tree.pass, passMembers_of_forall hpass]
    rfl

/-- A text is a list of documents. -/
structure IsList (items : List (List Char)) (text : List Char) : Prop where
  /-- The items stand between brackets. -/
  enclosed : Enclosed '[' ']' Spaced items text
  /-- They are documents. -/
  content : ∀ item ∈ items, IsJson item

/-- A text is an object with members that are documents. -/
structure IsObject (members : List Member) (text : List Char) : Prop where
  /-- The members stand between braces. -/
  enclosed : Enclosed '\x7b' '\x7d' IsMember members text
  /-- Their names may stand between quotes. -/
  names : ∀ m ∈ members, IsQuoted m.name
  /-- Their values are documents. -/
  content : ∀ m ∈ members, IsJson m.value

/-- A member as it is read: its name, and its value with a property. -/
def MemberRead (V : Member → Tree → Prop) (m : Member) (tree : Tree × Tree) : Prop :=
  NameRead m tree.1 ∧ V m tree.2

/-- An object is read member by member. -/
theorem IsObject.reads {members : List Member} (h : IsObject members text)
    {V : Member → Tree → Prop} (hvalues : ∀ m ∈ members, Reads m.value (V m)) :
    Reads text fun tree =>
      ∃ trees, tree = .object trees (.ok ()) ∧ List.Forall₂ (MemberRead V) members trees :=
  reads_object h.enclosed fun m hm _ htext =>
    readsMember_named htext (h.names m hm) (hvalues m hm)

/-- An object is read with a member of which more is known. -/
theorem IsObject.reads_with {members : List Member} (h : IsObject members text) {m : Member}
    {P : Tree → Prop} (hm : Reads m.value P) :
    Reads text fun tree => ∃ trees, tree = .object trees (.ok ()) ∧
      List.Forall₂ (MemberRead fun m' value => m' = m → P value) members trees := by
  refine h.reads fun m' hm' => ?_
  by_cases heq : m' = m
  · subst heq
    exact hm.mono fun _ hP _ => hP
  · exact (reads_isJson (h.content m' hm')).mono fun _ _ h => absurd h heq

/-- A text is an object with some members, with blanks around it. -/
def IsObjectText (members : List Member) (text : String) : Prop :=
  ∃ core, IsObject members core ∧ Spaced core text.toList

end Conditions.Json
