import Conditions.Proofs.Json.Values
import Conditions.Record.Read

/-!
# What is read is a text

A value is read from its texts and from nothing else (`parse_eq_ok_iff`): where a reader gives a
value, what it has gone through is one of the texts of the value (`readsTexts`).

The induction is on the fuel of the readers. What they go through is described from where each of
them sets out: from an opening bracket (`Opened`), from the first of some texts (`Begun`), or from
the comma or closing bracket after one of them (`Continued`). Lists and objects differ only in what
stands at each place, a value (`IsItem`) or a member (`IsField`).
-/

namespace Conditions.Json

variable {v : Json} {c : Char} {s t rest : List Char} {tree : Tree} {fuel room : Nat}

/-! ### Leaves -/

/-- Blanks stand before what is left when they are skipped. -/
theorem exists_skipSpace (s : List Char) : ∃ before, AreSpaces before ∧ s = before ++ skipSpace s :=
  ⟨s.takeWhile isSpace, fun _ => List.mem_takeWhile_imp, List.takeWhile_append_dropWhile.symm⟩

/-- What is read as a word and has a value is the word. -/
theorem eq_of_readWord {letters : List Char} {word : Tree}
    (h : readWord letters word s = (tree, rest)) (hv : tree.toJson room = .ok v) :
    word.toJson room = .ok v ∧ s = letters ++ rest := by
  unfold readWord at h
  split at h
  · next hletters =>
    cases h
    exact ⟨hv, (List.prefix_iff_eq_append.mp (List.isPrefixOf_iff_prefix.mp hletters)).symm⟩
  · -- a broken word has no value
    split at h <;> cases h <;> cases room <;> cases hv

theorem isText_of_readNumber {leaf : Leaf JsonNumber} (h : readNumber s = (leaf, rest))
    (hv : (Tree.number leaf).toJson room = .ok v) :
    ∃ core, v.IsText room core ∧ s = core ++ rest := by
  unfold readNumber at h
  split at h
  · next n rest hread =>
    cases h
    obtain ⟨core, hcore, rfl⟩ := exists_of_readNumeral hread
    refine ⟨core, ?_, rfl⟩
    have hvalue : n.value.map Json.number = .ok v := by cases room <;> exact hv
    cases hn : n.value with
    | error fault =>
      rw [hn] at hvalue
      cases hvalue
    | ok number =>
      rw [hn] at hvalue
      cases hvalue
      exact .number hcore hn
  · cases h
    cases room <;> cases hv

theorem isText_of_readText {leaf : Leaf String} (h : readText s = (leaf, rest))
    (hv : (Tree.text leaf).toJson room = .ok v) :
    ∃ core, v.IsText room core ∧ '"' :: s = core ++ rest := by
  have hcontent : leaf.content.map Json.text = .ok v := by cases room <;> exact hv
  have hleaf : leaf.content =
      (readContent (s.length + 1) s).map fun read => String.ofList read.1 := by
    unfold readText at h
    split at h <;> cases h <;> rfl
  cases hread : readContent (s.length + 1) s with
  | error fault =>
    rw [hleaf, hread] at hcontent
    cases hcontent
  | ok read =>
    obtain ⟨cs, rest'⟩ := read
    rw [hleaf, hread] at hcontent
    cases hcontent
    obtain ⟨q, hq, rfl⟩ := exists_of_readContent hread
    rw [readText_unescapes hq] at h
    cases h
    refine ⟨quote q, .text ?_, by simp [quote]⟩
    rwa [String.toList_ofList]

/-! ### Texts between brackets -/

section Sequences

variable {α β : Type} {opening closing : Char} {IsText : α → List Char → Prop} {as : List α}

/-- Texts from a comma on, each of them after a comma, and the closing bracket. -/
def Continued (closing : Char) (IsText : α → List Char → Prop) (as : List α)
    (s rest : List Char) : Prop :=
  ∃ before texts, AreSpaces before ∧ List.Forall₂ IsText as texts ∧
    s = before ++ (texts.flatMap (',' :: ·) ++ closing :: rest)

/-- Texts from the first of them on, and the closing bracket. -/
def Begun (closing : Char) (IsText : α → List Char → Prop) (as : List α)
    (s rest : List Char) : Prop :=
  ∃ a as' text texts, as = a :: as' ∧ IsText a text ∧ List.Forall₂ IsText as' texts ∧
    s = text ++ (texts.flatMap (',' :: ·) ++ closing :: rest)

/-- Texts from after the opening bracket on, and the closing bracket. -/
def Opened (opening closing : Char) (IsText : α → List Char → Prop) (as : List α)
    (s rest : List Char) : Prop :=
  ∃ text, Enclosed opening closing IsText as text ∧ opening :: s = text ++ rest

theorem continued_nil (h : skipSpace s = closing :: rest) :
    Continued closing IsText [] s rest := by
  obtain ⟨before, hbefore, hs⟩ := exists_skipSpace s
  exact ⟨before, [], hbefore, .nil, hs.trans (by rw [h]; rfl)⟩

theorem Begun.continued (h : Begun closing IsText as t rest) (hs : skipSpace s = ',' :: t) :
    Continued closing IsText as s rest := by
  obtain ⟨a, as, text, texts, rfl, htext, htexts, rfl⟩ := h
  obtain ⟨before, hbefore, hs'⟩ := exists_skipSpace s
  refine ⟨before, text :: texts, hbefore, .cons htext htexts, hs'.trans ?_⟩
  rw [hs, List.flatMap_cons, List.cons_append, List.cons_append, List.append_assoc]

theorem opened_nil (h : skipSpace s = closing :: rest) :
    Opened opening closing IsText [] s rest := by
  obtain ⟨before, hbefore, hs⟩ := exists_skipSpace s
  refine ⟨_, .empty hbefore, ?_⟩
  rw [hs, h]
  simp

theorem Begun.opened (h : Begun closing IsText as s rest) :
    Opened opening closing IsText as s rest := by
  obtain ⟨a, as, text, texts, rfl, htext, htexts, rfl⟩ := h
  exact ⟨_, .cons htext htexts, by simp⟩

theorem Enclosed.exists_between {R : α → β → Prop} {Q : β → List Char → Prop}
    (h : Enclosed opening closing (fun a text => ∃ b, R a b ∧ Q b text) as s) :
    ∃ bs, List.Forall₂ R as bs ∧ Enclosed opening closing Q bs s := by
  cases h with
  | empty hblanks => exact ⟨[], .nil, .empty hblanks⟩
  | cons first more =>
    obtain ⟨b, hR, hQ⟩ := first
    obtain ⟨bs, hRs, hQs⟩ := exists_forall₂_between more
    exact ⟨b :: bs, .cons hR hRs, .cons hQ hQs⟩

end Sequences

/-! ### Lists and objects -/

/-- A text is one of a value with blanks around it. -/
def IsItem (room : Nat) (v : Json) (text : List Char) : Prop :=
  ∃ core, v.IsText room core ∧ Spaced core text

/-- A text is a member that writes a value under a name. -/
def IsField (room : Nat) (write : String × Json) (text : List Char) : Prop :=
  ∃ m : Member, (m.IsNamed write.1 ∧ write.2.IsText room m.value) ∧ IsMember m text

theorem isText_array {values : List Json} (h : Enclosed '[' ']' (IsItem room) values s) :
    IsText (.array values) (room + 1) s := by
  obtain ⟨cores, hcores, hlist⟩ := h.exists_between
  obtain ⟨items, rfl, rfl, hitems⟩ := forall₂_iff_exists_pairs.mp hcores.flip
  refine .array ⟨hlist, ?_⟩ hitems
  exact List.forall_mem_map.mpr fun item hitem => (hitems item hitem).isJson

theorem isText_object {writes : List (String × Json)}
    (h : Enclosed '\x7b' '\x7d' (IsField room) writes s) :
    IsText (.ofWrites writes) (room + 1) s := by
  obtain ⟨members, hmembers, hobject⟩ := h.exists_between
  obtain ⟨fields, rfl, rfl, hfields⟩ := forall₂_iff_exists_pairs.mp hmembers.flip
  refine .object ⟨hobject, ?_, ?_⟩ (fun m hm => (hfields m hm).1) fun m hm => (hfields m hm).2
  · exact List.forall_mem_map.mpr fun m hm => (hfields m hm).1.isQuoted
  · exact List.forall_mem_map.mpr fun m hm => (hfields m hm).2.isJson

/-- A text of a value at the head, after blanks. -/
def Headed (room : Nat) (v : Json) (s rest : List Char) : Prop :=
  ∃ before core, AreSpaces before ∧ v.IsText room core ∧ s = before ++ (core ++ rest)

theorem headed_of_skipSpace {core : List Char} (h : v.IsText room core)
    (hs : skipSpace s = core ++ rest) : Headed room v s rest := by
  obtain ⟨before, hbefore, hs'⟩ := exists_skipSpace s
  exact ⟨before, core, hbefore, h, hs'.trans (by rw [hs])⟩

theorem headed_of_word {letters : List Char} {word : Tree} (hs : skipSpace s = c :: t)
    (hv : (readWord letters word t).1.toJson room = .ok v)
    (htext : ∀ v, word.toJson room = .ok v → v.IsText room (c :: letters)) :
    Headed room v s (readWord letters word t).2 := by
  obtain ⟨hword, ht⟩ := eq_of_readWord rfl hv
  exact headed_of_skipSpace (htext v hword) (hs.trans (congrArg _ ht))

/-- An item and the items after it. -/
theorem Headed.begun_item {values : List Json} (h : Headed room v s t)
    (hmore : Continued ']' (IsItem room) values t rest) :
    Begun ']' (IsItem room) (v :: values) s rest := by
  obtain ⟨before, core, hbefore, hcore, rfl⟩ := h
  obtain ⟨after, texts, hafter, htexts, rfl⟩ := hmore
  -- the blanks before the comma belong to the item
  exact ⟨v, values, before ++ (core ++ after), texts, rfl,
    ⟨core, hcore, .around hbefore hafter⟩, htexts, by simp⟩

theorem exists_of_readColon (h : readColon s = .ok t) :
    ∃ before, AreSpaces before ∧ s = before ++ ':' :: t := by
  unfold readColon at h
  split at h
  · cases h
  · next hs =>
    cases h
    obtain ⟨before, hbefore, hs'⟩ := exists_skipSpace s
    exact ⟨before, hbefore, hs'.trans (by rw [hs])⟩
  · cases h

/-- A name, a colon and a value, and the members after them. -/
theorem Headed.begun_field {name : String} {writes : List (String × Json)} {s' t' : List Char}
    (hname : Headed room (.text name) s s') (hcolon : readColon s' = .ok t)
    (hvalue : Headed room v t t') (hmore : Continued '\x7d' (IsField room) writes t' rest) :
    Begun '\x7d' (IsField room) ((name, v) :: writes) s rest := by
  obtain ⟨before, _, hbefore, hquote, rfl⟩ := hname
  obtain ⟨after, hafter, rfl⟩ := exists_of_readColon hcolon
  obtain ⟨before', core, hbefore', hcore, rfl⟩ := hvalue
  obtain ⟨after', texts, hafter', htexts, rfl⟩ := hmore
  cases hquote with
  | @text _ q _ hunescapes =>
    have hmember : IsMember ⟨q, core⟩
        (before ++ (quote q ++ after) ++ ':' :: (before' ++ (core ++ after'))) :=
      .parts (.around hbefore hafter) (.around hbefore' hafter')
    exact ⟨(name, v), writes, _, texts, rfl, ⟨⟨q, core⟩, ⟨hunescapes, hcore⟩, hmember⟩, htexts,
      by simp⟩

/-- What is read as a name is read as a text. -/
theorem toJson_of_name {name : String} (h : tree.name = .ok name) (room : Nat) :
    tree.toJson room = .ok (.text name) := by
  cases tree with
  | text leaf =>
    have hcontent : leaf.content = .ok name := h
    cases room <;> simp [Tree.toJson, hcontent, Except.map]
  | missing | null | bool | word | number | array | object => cases h

/-! ### The readers -/

section IfClosed

variable {α β : Type} {R : Nat → α → β → Prop} {P Q : Nat → List β → List Char → Prop}
  {read : List α × Except Fault Unit × List Char}

/-- If what is read goes on to the closing bracket, it has a property, whatever it is read as. -/
def IfClosed (R : Nat → α → β → Prop) (P : Nat → List β → List Char → Prop)
    (read : List α × Except Fault Unit × List Char) : Prop :=
  ∀ room values, read.2.1 = .ok () → List.Forall₂ (R room) read.1 values → P room values read.2.2

theorem ifClosed_error (fault : Fault) (trees : List α) (rest : List Char) :
    IfClosed R P (trees, .error fault, rest) := nofun

theorem ifClosed_nil (h : ∀ room, P room [] rest) : IfClosed R P ([], .ok (), rest) := by
  rintro room _ - ⟨⟩
  exact h room

theorem IfClosed.imp (h : IfClosed R P read)
    (hPQ : ∀ room values rest, P room values rest → Q room values rest) : IfClosed R Q read :=
  fun room values hclose hvalues => hPQ _ _ _ (h room values hclose hvalues)

end IfClosed

/-- The readers read only texts of what they give, with some fuel. -/
structure ReadsTexts (fuel : Nat) : Prop where
  /-- So the tree at the head of a text. -/
  tree (s : List Char) {room : Nat} {v : Json} (hv : (readTree fuel s).1.toJson room = .ok v) :
    Headed room v s (readTree fuel s).2
  /-- So the items of a list. -/
  items (s : List Char) : IfClosed Tree.IsValue
    (fun room values => Opened '[' ']' (IsItem room) values s) (readItems fuel s)
  /-- So the items after an item. -/
  moreItems (s : List Char) : IfClosed Tree.IsValue
    (fun room values => Continued ']' (IsItem room) values s) (readMoreItems fuel s)
  /-- So the members of an object. -/
  members (s : List Char) : IfClosed Tree.IsWrite
    (fun room writes => Opened '\x7b' '\x7d' (IsField room) writes s) (readMembers fuel s)
  /-- So the members after a member. -/
  moreMembers (s : List Char) : IfClosed Tree.IsWrite
    (fun room writes => Continued '\x7d' (IsField room) writes s) (readMoreMembers fuel s)
  /-- So the members from a name on. -/
  member (s : List Char) : IfClosed Tree.IsWrite
    (fun room writes => Begun '\x7d' (IsField room) writes s) (readMember fuel s)

theorem readsTexts_zero : ReadsTexts 0 where
  tree _ room _ hv := by cases room <;> cases hv
  items _ := ifClosed_error _ _ _
  moreItems _ := ifClosed_error _ _ _
  members _ := ifClosed_error _ _ _
  moreMembers _ := ifClosed_error _ _ _
  member _ := ifClosed_error _ _ _

namespace ReadsTexts

variable (h : ReadsTexts fuel)
include h

theorem readTree_succ (s : List Char) (hv : (readTree (fuel + 1) s).1.toJson room = .ok v) :
    Headed room v s (readTree (fuel + 1) s).2 := by
  rw [readTree] at hv ⊢
  split at hv
  case h_1 => cases room <;> cases hv
  case h_2 rest hs =>
    refine headed_of_word hs hv fun v hword => ?_
    cases room <;> cases hword <;> exact .null
  case h_3 rest hs =>
    refine headed_of_word hs hv fun v hword => ?_
    cases room <;> cases hword <;> exact .bool true
  case h_4 rest hs =>
    refine headed_of_word hs hv fun v hword => ?_
    cases room <;> cases hword <;> exact .bool false
  case h_5 rest hs =>
    obtain ⟨core, hcore, hrest⟩ := isText_of_readText rfl hv
    exact headed_of_skipSpace hcore (hs.trans hrest)
  case h_6 rest hs =>
    cases room with
    | zero => cases hv
    | succ room =>
      obtain ⟨values, hvalues, hclose, rfl⟩ := toJson_array_eq_ok_iff.mp hv
      obtain ⟨core, hcore, hrest⟩ := h.items rest room values hclose hvalues
      exact headed_of_skipSpace (isText_array hcore) (hs.trans hrest)
  case h_7 rest hs =>
    cases room with
    | zero => cases hv
    | succ room =>
      obtain ⟨writes, hwrites, hclose, rfl⟩ := toJson_object_eq_ok_iff.mp hv
      obtain ⟨core, hcore, hrest⟩ := h.members rest room writes hclose hwrites
      exact headed_of_skipSpace (isText_object hcore) (hs.trans hrest)
  case h_8 c rest _ _ _ _ _ _ hs =>
    split at hv
    · next hnumber =>
      obtain ⟨core, hcore, hrest⟩ := isText_of_readNumber rfl hv
      rw [if_pos hnumber]
      exact headed_of_skipSpace hcore (hs.trans hrest)
    · cases room <;> cases hv

/-- An item and the items after it. -/
theorem begun_item (s : List Char) : IfClosed Tree.IsValue
    (fun room values => Begun ']' (IsItem room) values s)
    ((readTree fuel s).1 :: (readMoreItems fuel (readTree fuel s).2).1,
      (readMoreItems fuel (readTree fuel s).2).2) := by
  rintro room _ hclose (_ | ⟨hv, hvs⟩)
  exact (h.tree s hv).begun_item (h.moreItems _ room _ hclose hvs)

theorem readItems_succ (s : List Char) : IfClosed Tree.IsValue
    (fun room values => Opened '[' ']' (IsItem room) values s) (readItems (fuel + 1) s) := by
  rw [readItems]
  split
  · exact ifClosed_error _ _ _
  · next hs => exact ifClosed_nil fun _ => opened_nil hs
  · rw [readTree_eq_of_skipSpace (skipSpace_skipSpace s)]
    exact (h.begun_item s).imp fun _ _ _ => Begun.opened

theorem readMoreItems_succ (s : List Char) : IfClosed Tree.IsValue
    (fun room values => Continued ']' (IsItem room) values s) (readMoreItems (fuel + 1) s) := by
  rw [readMoreItems]
  split
  · exact ifClosed_error _ _ _
  · next hs => exact ifClosed_nil fun _ => continued_nil hs
  · next rest hs => exact (h.begun_item rest).imp fun _ _ _ hbegun => hbegun.continued hs
  · exact ifClosed_error _ _ _

theorem readMembers_succ (s : List Char) : IfClosed Tree.IsWrite
    (fun room writes => Opened '\x7b' '\x7d' (IsField room) writes s)
    (readMembers (fuel + 1) s) := by
  rw [readMembers]
  split
  · exact ifClosed_error _ _ _
  · next hs => exact ifClosed_nil fun _ => opened_nil hs
  · rw [readMember_eq_of_skipSpace (skipSpace_skipSpace s)]
    exact (h.member s).imp fun _ _ _ => Begun.opened

theorem readMoreMembers_succ (s : List Char) : IfClosed Tree.IsWrite
    (fun room writes => Continued '\x7d' (IsField room) writes s)
    (readMoreMembers (fuel + 1) s) := by
  rw [readMoreMembers]
  split
  · exact ifClosed_error _ _ _
  · next hs => exact ifClosed_nil fun _ => continued_nil hs
  · next rest hs => exact (h.member rest).imp fun _ _ _ hbegun => hbegun.continued hs
  · exact ifClosed_error _ _ _

theorem readMember_succ (s : List Char) : IfClosed Tree.IsWrite
    (fun room writes => Begun '\x7d' (IsField room) writes s) (readMember (fuel + 1) s) := by
  rw [readMember]
  dsimp only
  split
  · split
    · next value hcolon =>
      rintro room _ hclose (_ | ⟨⟨hname, hv⟩, hwrites⟩)
      have hname := h.tree s (toJson_of_name hname room)
      exact hname.begun_field hcolon (h.tree value hv) (h.moreMembers _ room _ hclose hwrites)
    · exact ifClosed_error _ _ _
  · exact ifClosed_error _ _ _

/-- One more step of each reader. -/
theorem succ : ReadsTexts (fuel + 1) where
  tree s _ _ := h.readTree_succ s
  items := h.readItems_succ
  moreItems := h.readMoreItems_succ
  members := h.readMembers_succ
  moreMembers := h.readMoreMembers_succ
  member := h.readMember_succ

end ReadsTexts

/-- **What is read is a text of what it is read as.** -/
theorem readsTexts (fuel : Nat) : ReadsTexts fuel := by
  induction fuel with
  | zero => exact readsTexts_zero
  | succ fuel ih => exact ih.succ

/-! ### Documents -/

theorem decode_eq_ok_iff {α : Type} {read : Tree → Except Fault α} {doc : Document} {a : α} :
    doc.decode read = .ok a ↔ read doc.tree = .ok a ∧ doc.finish = .ok () := by
  unfold Document.decode
  simp only [bind_eq_ok_iff, Except.ok.injEq]
  constructor
  · rintro ⟨_, hread, _, hfinish, rfl⟩
    exact ⟨hread, hfinish⟩
  · rintro ⟨hread, hfinish⟩
    exact ⟨a, hread, (), hfinish, rfl⟩

theorem areSpaces_of_readEnd (h : readEnd s = .ok ()) : AreSpaces s := by
  unfold readEnd at h
  split at h
  · next hs =>
    obtain ⟨before, hbefore, hs'⟩ := exists_skipSpace s
    rwa [hs', hs, List.append_nil]
  · cases h

/-- **A value is read from exactly its texts**, with blanks around them. -/
theorem parse_eq_ok_iff {text : String} :
    parse text = .ok v ↔ ∃ core, v.IsText nestingLimit core ∧ Spaced core text.toList := by
  rw [parse, decode_eq_ok_iff]
  constructor
  · rintro ⟨hv, hfinish⟩
    unfold Document.read at hv hfinish
    obtain ⟨before, core, hbefore, hcore, htext⟩ := (readsTexts _).tree text.toList hv
    refine ⟨core, hcore, ?_⟩
    rw [htext]
    exact .around hbefore (areSpaces_of_readEnd hfinish)
  · rintro ⟨core, hcore, hspaced⟩
    obtain ⟨tree, hv, hread⟩ := read_spaced hcore.reads hspaced
    rw [String.ofList_toList] at hread
    rw [hread]
    exact ⟨hv, rfl⟩

end Conditions.Json
