import Conditions.Json.Reader
import Conditions.Proofs.Json.Numerals

/-!
# Reading lists and objects

What a text is read as does not depend on what follows it (`Reads`). So a list is read from the
readings of its items and an object from those of its members (`reads_array`, `reads_object`), with
blanks around all of them.

The reader has fuel. What a text needs of it is bounded by its length: each list, object, item and
member takes at least one character and at most three steps.
-/

namespace Conditions.Json

variable {c : Char} {s text core rest : List Char} {fuel : Nat}

/-! ### Blanks -/

/-- Characters that may stand between the parts of a document. -/
def AreSpaces (s : List Char) : Prop := ∀ c ∈ s, isSpace c = true

theorem areSpaces_nil : AreSpaces [] := List.forall_mem_nil _

/-- A text with blanks around it. -/
inductive Spaced (core : List Char) : List Char → Prop where
  /-- Blanks stand before and after, or none. -/
  | around {before after : List Char} (before_spaces : AreSpaces before)
    (after_spaces : AreSpaces after) : Spaced core (before ++ (core ++ after))

theorem Spaced.self (core : List Char) : Spaced core core := by
  have h : Spaced core ([] ++ (core ++ [])) := .around areSpaces_nil areSpaces_nil
  rwa [List.nil_append, List.append_nil] at h

theorem skipSpace_cons (h : isSpace c = false) (s : List Char) : skipSpace (c :: s) = c :: s := by
  rw [skipSpace, List.dropWhile_cons_of_neg (by simp [h])]

theorem skipSpace_append (h : AreSpaces s) (rest : List Char) :
    skipSpace (s ++ rest) = skipSpace rest :=
  List.dropWhile_append_of_pos h

theorem skipSpace_skipSpace (s : List Char) : skipSpace (skipSpace s) = skipSpace s :=
  List.dropWhile_idempotent isSpace s

/-- The reader of values passes over blanks. -/
theorem readTree_eq_of_skipSpace {s' : List Char} (h : skipSpace s = skipSpace s') :
    readTree fuel s = readTree fuel s' := by
  cases fuel with
  | zero => rfl
  | succ fuel => rw [readTree, readTree, h]

theorem readMember_eq_of_skipSpace {s' : List Char} (h : skipSpace s = skipSpace s') :
    readMember fuel s = readMember fuel s' := by
  cases fuel with
  | zero => rfl
  | succ fuel => rw [readMember, readMember, readTree_eq_of_skipSpace h]

/-- Blanks end a number. -/
theorem endsNumber_append (h : AreSpaces s) (hrest : EndsNumber rest) :
    EndsNumber (s ++ rest) := by
  cases s with
  | nil => exact hrest
  | cons c s =>
    have hc := h c List.mem_cons_self
    refine endsNumber_cons ⟨?_, ?_, ?_, ?_⟩
    · rw [isSpace] at hc
      simp only [Bool.or_eq_true, decide_eq_true_eq] at hc
      rcases hc with ((rfl | rfl) | rfl) | rfl <;> rfl
    all_goals
      rintro rfl
      cases hc

/-! ### What a text is read as -/

/-- Whatever follows a text, it is read as a tree with a property, and what follows is left. -/
structure Reads (text : List Char) (P : Tree → Prop) : Prop where
  /-- The text begins as a value. -/
  head : ∃ c s, text = c :: s ∧ isSpace c = false ∧ c ≠ ']'
  /-- The value is read. -/
  read (fuel : Nat) (rest : List Char) : 3 * text.length ≤ fuel → EndsNumber rest →
    ∃ tree, P tree ∧ readTree fuel (text ++ rest) = (tree, rest)

/-- A text with blanks around it is read as a tree with a property. -/
def ReadsSpaced (text : List Char) (P : Tree → Prop) : Prop :=
  ∃ core, Spaced core text ∧ Reads core P

/-- Whatever follows a name, the name is read from after its opening quote as a leaf with a
property, and is one that can be passed over. -/
def ReadsName (name : List Char) (P : Leaf String → Prop) : Prop :=
  ∀ rest, ∃ leaf, P leaf ∧ leaf.passed = .ok () ∧ readText (name ++ '"' :: rest) = (leaf, rest)

/-- Whatever follows a member, it is read as a name and a value with a property, up to blanks after
it. -/
structure ReadsMember (text : List Char) (P : Tree × Tree → Prop) : Prop where
  /-- The text begins as a name. -/
  head : ∃ s, skipSpace text = '"' :: s
  /-- The member is read, and the members after it. -/
  read (fuel : Nat) (rest : List Char) : 3 * text.length ≤ fuel + 1 → EndsNumber rest →
    ∃ member after, P member ∧ AreSpaces after ∧ readMember (fuel + 1) (text ++ rest) =
      let (members, close, rest) := readMoreMembers fuel (after ++ rest)
      (member :: members, close, rest)

namespace Reads

variable {P Q : Tree → Prop}

theorem mono (h : Reads text P) (hPQ : ∀ tree, P tree → Q tree) : Reads text Q where
  head := h.head
  read fuel rest hfuel hrest := by
    obtain ⟨tree, hP, hread⟩ := h.read fuel rest hfuel hrest
    exact ⟨tree, hPQ tree hP, hread⟩

/-- A text is read as one tree. -/
theorem and (h : Reads text P) (h' : Reads text Q) : Reads text fun tree => P tree ∧ Q tree where
  head := h.head
  read fuel rest hfuel hrest := by
    obtain ⟨tree, hP, hread⟩ := h.read fuel rest hfuel hrest
    obtain ⟨tree', hQ, hread'⟩ := h'.read fuel rest hfuel hrest
    obtain ⟨rfl, -⟩ := Prod.mk.inj (hread.symm.trans hread')
    exact ⟨tree, ⟨hP, hQ⟩, hread⟩

/-- A text is read as some tree. -/
theorem exists_tree (h : Reads text P) : ∃ tree, P tree := by
  obtain ⟨tree, hP, -⟩ := h.read (3 * text.length) [] (Nat.le_refl _) endsNumber_nil
  exact ⟨tree, hP⟩

theorem spaced (h : Reads text P) : ReadsSpaced text P := ⟨text, .self text, h⟩

end Reads

theorem ReadsMember.mono {P Q : Tree × Tree → Prop} (h : ReadsMember text P)
    (hPQ : ∀ member, P member → Q member) : ReadsMember text Q where
  head := h.head
  read fuel rest hfuel hrest := by
    obtain ⟨member, after, hP, hafter, hread⟩ := h.read fuel rest hfuel hrest
    exact ⟨member, after, hPQ member hP, hafter, hread⟩

theorem skipSpace_append_of_eq_cons (h : skipSpace text = c :: s) (rest : List Char) :
    skipSpace (text ++ rest) = c :: (s ++ rest) := by
  rw [skipSpace] at h ⊢
  rw [List.dropWhile_append, h]
  rfl

namespace ReadsSpaced

variable {P : Tree → Prop} (h : ReadsSpaced text P)
include h

theorem head : ∃ c s, skipSpace text = c :: s ∧ c ≠ ']' := by
  obtain ⟨core, ⟨hbefore, -⟩, hcore⟩ := h
  obtain ⟨c, s, rfl, hspace, hc⟩ := hcore.head
  exact ⟨c, _, by rw [skipSpace_append hbefore, List.cons_append, skipSpace_cons hspace], hc⟩

theorem length_pos : 1 ≤ text.length := by
  obtain ⟨c, s, hskip, -⟩ := h.head
  cases text with
  | nil => cases hskip
  | cons c s => exact Nat.succ_le_succ (Nat.zero_le _)

theorem read (hfuel : 3 * text.length ≤ fuel) (hrest : EndsNumber rest) :
    ∃ tree after, P tree ∧ AreSpaces after ∧
      readTree fuel (text ++ rest) = (tree, after ++ rest) := by
  obtain ⟨core, ⟨hbefore, hafter⟩, hcore⟩ := h
  next before after =>
  rw [List.length_append, List.length_append] at hfuel
  obtain ⟨tree, hP, hread⟩ := hcore.read fuel (after ++ rest) (by omega)
    (endsNumber_append hafter hrest)
  refine ⟨tree, after, hP, hafter, ?_⟩
  rw [List.append_assoc, List.append_assoc,
    readTree_eq_of_skipSpace (skipSpace_append hbefore _), hread]

end ReadsSpaced

/-! ### One step of the reader -/

theorem readTree_quote (fuel : Nat) (s : List Char) :
    readTree (fuel + 1) ('"' :: s) = (.text (readText s).1, (readText s).2) := rfl

theorem readTree_bracket (fuel : Nat) (s : List Char) :
    readTree (fuel + 1) ('[' :: s) =
      (.array (readItems fuel s).1 (readItems fuel s).2.1, (readItems fuel s).2.2) := rfl

theorem readTree_brace (fuel : Nat) (s : List Char) :
    readTree (fuel + 1) ('\x7b' :: s) =
      (.object (readMembers fuel s).1 (readMembers fuel s).2.1, (readMembers fuel s).2.2) := rfl

/-- Nothing but blanks stands before the end of a list. -/
theorem readItems_bracket (h : skipSpace s = ']' :: rest) :
    readItems (fuel + 1) s = ([], .ok (), rest) := by
  rw [readItems, h]
  rfl

/-- Reads an item and the items after it. -/
theorem readItems_cons (h : skipSpace s = c :: rest) (hc : c ≠ ']') :
    readItems (fuel + 1) s =
      let (item, rest) := readTree fuel s
      let (items, close, rest) := readMoreItems fuel rest
      (item :: items, close, rest) := by
  rw [readTree_eq_of_skipSpace (skipSpace_skipSpace s).symm, readItems, h]
  split
  · next heq => cases heq
  · next heq =>
    cases heq
    exact absurd rfl hc
  · rfl

theorem readMoreItems_bracket (h : skipSpace s = ']' :: rest) :
    readMoreItems (fuel + 1) s = ([], .ok (), rest) := by
  rw [readMoreItems, h]
  rfl

theorem readMoreItems_comma (h : skipSpace s = ',' :: rest) :
    readMoreItems (fuel + 1) s =
      let (item, rest) := readTree fuel rest
      let (items, close, rest) := readMoreItems fuel rest
      (item :: items, close, rest) := by
  rw [readMoreItems, h]
  rfl

theorem readMembers_brace (h : skipSpace s = '\x7d' :: rest) :
    readMembers (fuel + 1) s = ([], .ok (), rest) := by
  rw [readMembers, h]
  rfl

theorem readMembers_quote (h : skipSpace s = '"' :: rest) :
    readMembers (fuel + 1) s = readMember fuel s := by
  rw [readMember_eq_of_skipSpace (skipSpace_skipSpace s).symm, readMembers, h]
  rfl

theorem readMoreMembers_brace (h : skipSpace s = '\x7d' :: rest) :
    readMoreMembers (fuel + 1) s = ([], .ok (), rest) := by
  rw [readMoreMembers, h]
  rfl

theorem readMoreMembers_comma (h : skipSpace s = ',' :: rest) :
    readMoreMembers (fuel + 1) s = readMember fuel rest := by
  rw [readMoreMembers, h]
  rfl

/-! ### Lists -/

/-- Texts between brackets, with commas between them. Where there are none blanks may stand. -/
inductive Enclosed {α : Type} (opening closing : Char) (IsText : α → List Char → Prop) :
    List α → List Char → Prop where
  /-- Nothing but blanks. -/
  | empty {blanks : List Char} (h : AreSpaces blanks) :
    Enclosed opening closing IsText [] (opening :: (blanks ++ [closing]))
  /-- A text and the texts after it, each after a comma. -/
  | cons {a : α} {as : List α} {text : List Char} {texts : List (List Char)}
    (first : IsText a text) (more : List.Forall₂ IsText as texts) :
    Enclosed opening closing IsText (a :: as)
      (opening :: (text ++ (texts.flatMap (',' :: ·) ++ [closing])))

theorem Enclosed.imp {α : Type} {opening closing : Char} {P Q : α → List Char → Prop} {as : List α}
    (h : Enclosed opening closing P as text) (hPQ : ∀ a text, P a text → Q a text) :
    Enclosed opening closing Q as text := by
  cases h with
  | empty hblanks => exact .empty hblanks
  | cons first more => exact .cons (hPQ _ _ first) (more.imp hPQ)

theorem enclosed_map_iff {α β : Type} {opening closing : Char} {P : β → List Char → Prop}
    {f : α → β} {as : List α} : Enclosed opening closing P (as.map f) text ↔
      Enclosed opening closing (fun a => P (f a)) as text := by
  cases as with
  | nil =>
    constructor
    · rintro ⟨hblanks⟩
      exact .empty hblanks
    · rintro ⟨hblanks⟩
      exact .empty hblanks
  | cons a as =>
    constructor
    · rintro (_ | ⟨first, more⟩)
      exact .cons first (List.forall₂_map_left_iff.mp more)
    · rintro (_ | ⟨first, more⟩)
      exact .cons first (List.forall₂_map_left_iff.mpr more)

section Lists

variable {α : Type} {IsText : α → List Char → Prop} {texts : List (List Char)} {as : List α}

theorem endsNumber_flatMap (texts : List (List Char)) (hrest : EndsNumber rest) :
    EndsNumber (texts.flatMap (',' :: ·) ++ rest) := by
  cases texts with
  | nil => exact hrest
  | cons text texts => exact endsNumber_cons (by decide)

theorem readMoreItems_flatMap {P : α → Tree → Prop} (h : List.Forall₂ IsText as texts)
    (hreads : ∀ a ∈ as, ∀ text, IsText a text → ReadsSpaced text (P a))
    {after : List Char} (hafter : AreSpaces after) (rest : List Char)
    (hfuel : 3 * (texts.flatMap (',' :: ·)).length < fuel) :
    ∃ trees, List.Forall₂ P as trees ∧
      readMoreItems fuel (after ++ (texts.flatMap (',' :: ·) ++ ']' :: rest)) =
        (trees, .ok (), rest) := by
  obtain ⟨fuel, rfl⟩ := Nat.exists_eq_add_one.mpr (Nat.zero_lt_of_lt hfuel)
  induction h generalizing fuel after with
  | nil => exact ⟨[], .nil, readMoreItems_bracket (skipSpace_append hafter _)⟩
  | @cons a text as texts ha _ ih =>
    obtain ⟨hitem, hitems⟩ := List.forall_mem_cons.mp hreads
    simp only [List.flatMap_cons, List.length_cons, List.length_append, List.cons_append,
      List.append_assoc] at hfuel ⊢
    obtain ⟨fuel, rfl⟩ := Nat.exists_eq_add_one.mpr (by omega : 0 < fuel)
    have hends : EndsNumber (texts.flatMap (',' :: ·) ++ ']' :: rest) :=
      endsNumber_flatMap texts (endsNumber_cons (by decide))
    obtain ⟨tree, after', hP, hafter', hread⟩ :=
      (hitem text ha).read (by omega : _ ≤ fuel + 1) hends
    obtain ⟨trees, hPs, hmore⟩ := ih hitems hafter' fuel (by omega)
    refine ⟨tree :: trees, .cons hP hPs, ?_⟩
    rw [readMoreItems_comma (skipSpace_append hafter _), hread]
    dsimp only
    rw [hmore]

/-- **A list is read as the list of what its items are read as.** -/
theorem reads_array {P : α → Tree → Prop} (h : Enclosed '[' ']' IsText as text)
    (hreads : ∀ a ∈ as, ∀ text, IsText a text → ReadsSpaced text (P a)) :
    Reads text fun tree => ∃ trees, tree = .array trees (.ok ()) ∧ List.Forall₂ P as trees := by
  cases h with
  | empty hblanks =>
    refine ⟨⟨_, _, rfl, by decide, by decide⟩, fun fuel rest hfuel _ => ?_⟩
    simp only [List.length_cons, List.length_append] at hfuel
    obtain ⟨fuel, rfl⟩ := Nat.exists_eq_add_of_le' (by omega : 2 ≤ fuel)
    refine ⟨_, ⟨[], rfl, .nil⟩, ?_⟩
    rw [List.cons_append, List.append_assoc, readTree_bracket,
      readItems_bracket (skipSpace_append hblanks _)]
    rfl
  | @cons a as text texts ha hmore =>
    obtain ⟨hitem, hitems⟩ := List.forall_mem_cons.mp hreads
    have hpos := (hitem text ha).length_pos
    obtain ⟨c, s, hskip, hc⟩ := (hitem text ha).head
    refine ⟨⟨_, _, rfl, by decide, by decide⟩, fun fuel rest hfuel _ => ?_⟩
    simp only [List.length_cons, List.length_append] at hfuel
    obtain ⟨fuel, rfl⟩ := Nat.exists_eq_add_of_le' (by omega : 2 ≤ fuel)
    simp only [List.cons_append, List.append_assoc, List.nil_append]
    have hends : EndsNumber (texts.flatMap (',' :: ·) ++ ']' :: rest) :=
      endsNumber_flatMap texts (endsNumber_cons (by decide))
    obtain ⟨tree, after, hP, hafter, hread⟩ := (hitem text ha).read (by omega : _ ≤ fuel) hends
    obtain ⟨trees, hPs, hread'⟩ :=
      readMoreItems_flatMap hmore hitems hafter rest (by omega : _ < fuel)
    refine ⟨_, ⟨tree :: trees, rfl, .cons hP hPs⟩, ?_⟩
    rw [readTree_bracket, readItems_cons (skipSpace_append_of_eq_cons hskip _) hc, hread]
    dsimp only
    rw [hread']

/-! ### Objects -/

theorem readMoreMembers_flatMap {P : α → Tree × Tree → Prop} (h : List.Forall₂ IsText as texts)
    (hreads : ∀ a ∈ as, ∀ text, IsText a text → ReadsMember text (P a))
    {after : List Char} (hafter : AreSpaces after) (rest : List Char)
    (hfuel : 3 * (texts.flatMap (',' :: ·)).length < fuel) :
    ∃ trees, List.Forall₂ P as trees ∧
      readMoreMembers fuel (after ++ (texts.flatMap (',' :: ·) ++ '\x7d' :: rest)) =
        (trees, .ok (), rest) := by
  obtain ⟨fuel, rfl⟩ := Nat.exists_eq_add_one.mpr (Nat.zero_lt_of_lt hfuel)
  induction h generalizing fuel after with
  | nil => exact ⟨[], .nil, readMoreMembers_brace (skipSpace_append hafter _)⟩
  | @cons a text as texts ha _ ih =>
    obtain ⟨hmember, hmembers⟩ := List.forall_mem_cons.mp hreads
    simp only [List.flatMap_cons, List.length_cons, List.length_append, List.cons_append,
      List.append_assoc] at hfuel ⊢
    obtain ⟨fuel, rfl⟩ := Nat.exists_eq_add_of_le' (by omega : 2 ≤ fuel)
    have hends : EndsNumber (texts.flatMap (',' :: ·) ++ '\x7d' :: rest) :=
      endsNumber_flatMap texts (endsNumber_cons (by decide))
    obtain ⟨member, after', hP, hafter', hread⟩ :=
      (hmember text ha).read (fuel + 1) _ (by omega) hends
    obtain ⟨trees, hPs, hmore⟩ := ih hmembers hafter' fuel (by omega)
    refine ⟨member :: trees, .cons hP hPs, ?_⟩
    rw [readMoreMembers_comma (skipSpace_append hafter _), hread, hmore]

/-- **An object is read as what its members are read as.** -/
theorem reads_object {P : α → Tree × Tree → Prop} (h : Enclosed '\x7b' '\x7d' IsText as text)
    (hreads : ∀ a ∈ as, ∀ text, IsText a text → ReadsMember text (P a)) :
    Reads text fun tree => ∃ trees, tree = .object trees (.ok ()) ∧ List.Forall₂ P as trees := by
  cases h with
  | empty hblanks =>
    refine ⟨⟨_, _, rfl, by decide, by decide⟩, fun fuel rest hfuel _ => ?_⟩
    simp only [List.length_cons, List.length_append] at hfuel
    obtain ⟨fuel, rfl⟩ := Nat.exists_eq_add_of_le' (by omega : 2 ≤ fuel)
    refine ⟨_, ⟨[], rfl, .nil⟩, ?_⟩
    rw [List.cons_append, List.append_assoc, readTree_brace,
      readMembers_brace (skipSpace_append hblanks _)]
    rfl
  | @cons a as text texts ha hmore =>
    obtain ⟨hmember, hmembers⟩ := List.forall_mem_cons.mp hreads
    obtain ⟨s, hskip⟩ := (hmember text ha).head
    refine ⟨⟨_, _, rfl, by decide, by decide⟩, fun fuel rest hfuel _ => ?_⟩
    simp only [List.length_cons, List.length_append] at hfuel
    obtain ⟨fuel, rfl⟩ := Nat.exists_eq_add_of_le' (by omega : 3 ≤ fuel)
    simp only [List.cons_append, List.append_assoc, List.nil_append]
    have hends : EndsNumber (texts.flatMap (',' :: ·) ++ '\x7d' :: rest) :=
      endsNumber_flatMap texts (endsNumber_cons (by decide))
    obtain ⟨member, after, hP, hafter, hread⟩ := (hmember text ha).read fuel _ (by omega) hends
    obtain ⟨trees, hPs, hread'⟩ :=
      readMoreMembers_flatMap hmore hmembers hafter rest (by omega : _ < fuel)
    refine ⟨_, ⟨member :: trees, rfl, .cons hP hPs⟩, ?_⟩
    rw [readTree_brace, readMembers_quote (skipSpace_append_of_eq_cons hskip _), hread, hread']

end Lists

/-! ### Members -/

/-- A member of an object: what stands between the quotes of its name, and the text of its value. -/
structure Member where
  /-- The name as it is written. -/
  name : List Char
  /-- The value as it is written. -/
  value : List Char

/-- A text is a member: the name, a colon and the value, with blanks around them. -/
inductive IsMember (m : Member) : List Char → Prop where
  /-- The parts in order. -/
  | parts {name value : List Char} (name_spaced : Spaced ('"' :: (m.name ++ ['"'])) name)
    (value_spaced : Spaced m.value value) : IsMember m (name ++ ':' :: value)

/-- A member without blanks. -/
theorem isMember_self (m : Member) : IsMember m ('"' :: (m.name ++ ['"']) ++ ':' :: m.value) :=
  .parts (.self _) (.self _)

/-- A member is read as its name and its value are. -/
theorem readsMember {m : Member} (h : IsMember m text) {N : Leaf String → Prop} {V : Tree → Prop}
    (hname : ReadsName m.name N) (hvalue : Reads m.value V) :
    ReadsMember text fun member => (∃ leaf, member.1 = .text leaf ∧ N leaf) ∧ V member.2 := by
  obtain ⟨⟨hbefore, hafter⟩, hspaced⟩ := h
  next valueText before after =>
  have hskip (rest : List Char) :
      skipSpace (before ++ (('"' :: (m.name ++ ['"'])) ++ after) ++ rest) =
        '"' :: (m.name ++ '"' :: (after ++ rest)) := by
    simp only [List.append_assoc, List.cons_append, List.nil_append]
    rw [skipSpace_append hbefore, skipSpace_cons (by decide)]
  refine ⟨⟨_, hskip _⟩, fun fuel rest hfuel hrest => ?_⟩
  simp only [List.length_append, List.length_cons] at hfuel
  obtain ⟨fuel, rfl⟩ := Nat.exists_eq_add_one.mpr (by omega : 0 < fuel)
  have hvalue' : ReadsSpaced valueText V := ⟨m.value, hspaced, hvalue⟩
  obtain ⟨leaf, hN, hpassed, hleaf⟩ := hname (after ++ ':' :: (valueText ++ rest))
  obtain ⟨tree, after', hV, hafter', hread⟩ :=
    hvalue'.read (by omega : _ ≤ fuel + 1) hrest
  have hreadName : readTree (fuel + 1)
      (before ++ (('"' :: (m.name ++ ['"'])) ++ after) ++ ':' :: (valueText ++ rest)) =
        (.text leaf, after ++ ':' :: (valueText ++ rest)) := by
    rw [readTree_eq_of_skipSpace ((hskip _).trans (skipSpace_cons (by decide) _).symm),
      readTree_quote, hleaf]
  have hisName : Tree.isName (.text leaf) = true := by
    rw [Tree.isName, hpassed]
    rfl
  have hcolon : readColon (after ++ ':' :: (valueText ++ rest)) = .ok (valueText ++ rest) := by
    rw [readColon, skipSpace_append hafter, skipSpace_cons (by decide)]
    rfl
  refine ⟨(.text leaf, tree), after', ⟨⟨leaf, rfl, hN⟩, hV⟩, hafter', ?_⟩
  have hassoc : before ++ (('"' :: (m.name ++ ['"'])) ++ after) ++ ':' :: valueText ++ rest =
      before ++ (('"' :: (m.name ++ ['"'])) ++ after) ++ ':' :: (valueText ++ rest) :=
    List.append_assoc _ (':' :: valueText) rest
  rw [hassoc, readMember, hreadName]
  dsimp only
  rw [if_pos hisName, hcolon]
  dsimp only
  rw [hread]

end Conditions.Json
