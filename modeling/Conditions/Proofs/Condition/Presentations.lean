import Conditions.Proofs.Condition.Acceptance
import Conditions.Proofs.Condition.Members

/-!
# Presentations of conditions

A condition has many texts (`Presents`). The members of a node come in any order, names and values
are written in any way, the token goes by either of its names and may be left out if it is empty, a
part that is absent may be left out or be null, except that null is a literal, and members with
other names may hold anything. Each of these texts is read as the condition, if the condition is not
nested too deep (`reads_presents`), since a node is read member by member and each member brings its
part whatever came before. What is written for a condition with finite numbers is one of these
texts exactly if the numbers survive (`presents_write_iff`).

A text in which some node has two members for one part (`Doubled`) is not read at all, whatever else
it holds (`reads_doubled`).
-/

namespace Conditions.Condition

open Json (Tree Fault Member IsMember IsJson IsList IsObject IsQuoted Enclosed Spaced Reads
  ReadsMember MemberRead Survives nesting itemsNesting textNesting quote)

/-- The names that members for the parts of a condition go by. -/
def knownNames : List String := ["op", "operator", "property", "value", "conditions", "condition"]

mutual

/-- A text presents a condition. It is an object with members that are given here with the parts
that they carry, in any order; no part comes twice, and the parts that do not come are absent. -/
inductive Presents : Condition → List Char → Prop where
  /-- The object of a node. -/
  | node {c : Condition} {members : List (Option Part × Member)} {text : List Char}
    (object : Enclosed '\x7b' '\x7d' (fun m => IsMember m.2) members text)
    (carried : ∀ m ∈ members, Carries c m.1 m.2) (once : (carriedParts members).Nodup)
    (omitted : ∀ part, part ∉ carriedParts members → c.Lacks part) : Presents c text

/-- A member carries a part of a condition, or none. -/
inductive Carries : Condition → Option Part → Member → Prop where
  /-- The token, under either name. -/
  | op {c : Condition} {m : Member} (isFor : IsFor m .op)
    (value : (Literal.text c.op).IsText m.value) : Carries c (some .op) m
  /-- The field that is compared. -/
  | property {c : Condition} {m : Member} {property : String} (isFor : IsFor m .property)
    (present : c.property = some property) (value : (Literal.text property).IsText m.value) :
    Carries c (some .property) m
  /-- The literal, null included. -/
  | value {c : Condition} {m : Member} {literal : Literal} (isFor : IsFor m .value)
    (present : c.value = some literal) (value : literal.IsText m.value) :
    Carries c (some .value) m
  /-- The list of conditions. -/
  | conditions {c : Condition} {m : Member} {items : List (Condition × List Char)}
    (isFor : IsFor m .conditions) (present : c.conditions = some (items.map Prod.fst))
    (list : Enclosed '[' ']' (fun item => Spaced item.2) items m.value)
    (presented : ∀ item ∈ items, Presents item.1 item.2) : Carries c (some .conditions) m
  /-- The single condition. -/
  | condition {c d : Condition} {m : Member} (isFor : IsFor m .condition)
    (present : c.condition = some d) (value : Presents d m.value) : Carries c (some .condition) m
  /-- Null in place of a part that is absent; of the literal it is no such sign. -/
  | null {c : Condition} {m : Member} {part : Part} (isFor : IsFor m part)
    (nullable : part ∈ [.property, .conditions, .condition]) (absent : c.Lacks part)
    (value : m.value = ['n', 'u', 'l', 'l']) : Carries c (some part) m
  /-- Anything under another name. -/
  | other {c : Condition} {m : Member} {name : String} (named : m.IsNamed name)
    (unknown : name ∉ knownNames) (value : IsJson m.value) : Carries c none m

end

/-! ### Reading presentations -/

/-- A tree is read as a condition within a depth of nesting exactly if the condition is not nested
deeper; else it is malformed. -/
def Decodes (c : Condition) (tree : Tree) : Prop :=
  ∀ room, ofTree room tree =
    if nesting c.toJson ≤ room then .ok c else .error .malformed

/-- Null is read as no condition. -/
theorem Decodes.ne_null {tree : Tree} (h : Decodes c tree) : tree ≠ .null := by
  rintro rfl
  have hread := h (nesting c.toJson)
  rw [if_pos (Nat.le_refl _)] at hread
  cases hroom : nesting c.toJson with
  | zero =>
    rw [hroom] at hread
    cases hread
  | succ room =>
    rw [hroom, ofTree_succ] at hread
    cases hread

theorem array_ne_null (trees : List Tree) : Tree.array trees (.ok ()) ≠ .null := by
  rintro ⟨⟩

theorem optional_of_ne_null {α : Type} (read : Tree → Except Fault α) {tree : Tree}
    (h : tree ≠ .null) : tree.optional read = (read tree).map some := by
  cases tree with
  | null => exact absurd rfl h
  | missing | bool | word | number | text | array | object => rfl

/-- Conditions are read one by one. -/
theorem mapM_decodes {cs : List Condition} {trees : List Tree}
    (h : List.Forall₂ Decodes cs trees) (room : Nat) :
    trees.mapM (ofTree room) =
      if itemsNesting (listToJson cs) ≤ room then .ok cs else .error .malformed := by
  induction h with
  | nil => exact (if_pos (Nat.zero_le _)).symm
  | @cons c tree cs trees hc _ ih =>
    simp only [listToJson, itemsNesting, List.mapM_cons, hc room, ih, Nat.max_le]
    by_cases hdeep : nesting c.toJson ≤ room
    · by_cases hrest : itemsNesting (listToJson cs) ≤ room
      · rw [if_pos hdeep, if_pos hrest, if_pos ⟨hdeep, hrest⟩]
        rfl
      · rw [if_pos hdeep, if_neg hrest, if_neg (not_and_of_not_right _ hrest)]
        rfl
    · rw [if_neg hdeep, if_neg (not_and_of_not_left _ hdeep)]
      rfl

/-- A list of conditions takes one level, and leaves the rest to them. -/
theorem listOfTree_decodes {cs : List Condition} {trees : List Tree}
    (h : List.Forall₂ Decodes cs trees) (room : Nat) :
    listOfTree room (.array trees (.ok ())) =
      if nesting (.array (listToJson cs)) ≤ room then .ok cs else .error .malformed := by
  cases room with
  | zero => rfl
  | succ room =>
    rw [listOfTree, mapM_decodes h]
    simp only [nesting, Nat.add_le_add_iff_right]
    split <;> rfl

section Carried

variable {c : Condition} {m : Member} {tree : Tree}

theorem brings_op : c.Brings .op (.text (Json.Leaf.ok c.op)) :=
  fun _ => (if_pos (Nat.zero_le _)).symm

theorem brings_property {property : String} (h : c.property = some property) :
    c.Brings .property (.text (Json.Leaf.ok property)) := by
  intro room
  rw [if_pos (show c.partNesting .property ≤ room from Nat.zero_le _)]
  show _ = Except.ok fun d : Condition => { d with property := c.property }
  rw [h]
  rfl

theorem brings_value {literal : Literal} (h : c.value = some literal) (htree : tree.Holds literal) :
    c.Brings .value tree := by
  intro room
  rw [if_pos (show c.partNesting .value ≤ room from Nat.zero_le _), readPart, htree.literal]
  show _ = Except.ok fun d : Condition => { d with value := c.value }
  rw [h]
  rfl

theorem brings_conditions {cs : List Condition} {trees : List Tree} (h : c.conditions = some cs)
    (htrees : List.Forall₂ Decodes cs trees) :
    c.Brings .conditions (.array trees (.ok ())) := by
  intro room
  have hnesting : c.partNesting .conditions = nesting (.array (listToJson cs)) := by
    rw [partNesting, h]
    rfl
  rw [hnesting, readPart, optional_of_ne_null _ (array_ne_null trees), listOfTree_decodes htrees]
  show _ = if _ then Except.ok fun d : Condition => { d with conditions := c.conditions } else _
  rw [h]
  split <;> rfl

theorem brings_condition {d : Condition} (h : c.condition = some d) (htree : Decodes d tree) :
    c.Brings .condition tree := by
  intro room
  have hnesting : c.partNesting .condition = nesting d.toJson := by
    rw [partNesting, h]
    rfl
  rw [hnesting, readPart, optional_of_ne_null _ htree.ne_null, htree room]
  show _ = if _ then Except.ok fun e : Condition => { e with condition := c.condition } else _
  rw [h]
  split <;> rfl

theorem brings_null {part : Part} (nullable : part ∈ [.property, .conditions, .condition])
    (absent : c.Lacks part) : c.Brings part .null := by
  intro room
  rw [absent.partNesting_eq, if_pos (Nat.zero_le _)]
  obtain ⟨op, property, value, conditions, condition⟩ := c
  simp only [List.mem_cons, List.not_mem_nil, or_false] at nullable
  rcases nullable with rfl | rfl | rfl <;> cases absent <;> rfl

/-- A member is read by its name as the part that it brings. -/
theorem readsMember_brings {text : List Char} (htext : IsMember m text) {part : Part}
    (hpart : IsFor m part) (hvalue : Reads m.value (c.Brings part)) :
    ReadsMember text (c.ReadAs (some part)) := by
  obtain ⟨name, named, hname⟩ := hpart.exists_lookup
  refine (Json.readsMember_named htext named.isQuoted hvalue).mono fun tree hread => ?_
  exact ⟨name, hread.1.name_eq named, hname, hread.2⟩

theorem lookup_eq_none {name : String} (h : name ∉ knownNames) : partNames.lookup name = none := by
  refine List.lookup_eq_none_iff.mpr fun entry hentry => ?_
  rw [bne_iff_ne]
  rintro rfl
  exact h (List.mem_map_of_mem hentry)

/-- A member that carries a part of a condition is read as this part, if presentations of the
conditions below are read as these. -/
theorem Carries.reads
    (hcs : ∀ cs, c.conditions = some cs →
      ∀ d ∈ cs, ∀ text, Presents d text → Reads text (Decodes d))
    (hc : ∀ d, c.condition = some d → ∀ text, Presents d text → Reads text (Decodes d))
    {role : Option Part} (h : Carries c role m) {text : List Char} (htext : IsMember m text) :
    ReadsMember text (c.ReadAs role) := by
  cases h with
  | op isFor value =>
    refine readsMember_brings htext isFor ((reads_literal_text value).mono ?_)
    exact fun _ htree => htree ▸ brings_op
  | property isFor present value =>
    refine readsMember_brings htext isFor ((reads_literal_text value).mono ?_)
    exact fun _ htree => htree ▸ brings_property present
  | value isFor present value =>
    refine readsMember_brings htext isFor (value.reads.mono ?_)
    exact fun _ htree => brings_value present htree
  | @conditions _ _ items isFor present list presented =>
    have hitems : ∀ item ∈ items, ∀ text, Spaced item.2 text →
        Json.ReadsSpaced text (Decodes item.1) := fun item hitem text hspaced =>
      ⟨item.2, hspaced, hcs _ present item.1 (List.mem_map_of_mem hitem) item.2
        (presented item hitem)⟩
    refine readsMember_brings htext isFor ((Json.reads_array list hitems).mono ?_)
    rintro _ ⟨trees, rfl, htrees⟩
    exact brings_conditions present (List.forall₂_map_left_iff.mpr htrees)
  | condition isFor present value =>
    refine readsMember_brings htext isFor ((hc _ present _ value).mono ?_)
    exact fun _ htree => brings_condition present htree
  | null isFor nullable absent value =>
    refine readsMember_brings htext isFor ?_
    rw [value]
    exact Json.reads_null.mono fun _ htree => htree ▸ brings_null nullable absent
  | other named unknown value =>
    refine (Json.readsMember_named htext named.isQuoted (Json.reads_isJson value)).mono ?_
    exact fun tree hread =>
      ⟨_, hread.1.name_eq named, lookup_eq_none unknown, hread.2⟩

end Carried

/-- **A presentation of a condition is read as the condition**, if the condition is not nested too
deep. -/
theorem reads_presents (c : Condition) (text : List Char) (h : Presents c text) :
    Reads text (Decodes c) := by
  induction c using Condition.induction generalizing text with
  | node c hcs hc =>
    obtain ⟨object, carried, once, omitted⟩ := h
    next members =>
    refine (Json.reads_object object fun m hm _ htext =>
      (carried m hm).reads hcs hc htext).mono ?_
    rintro _ ⟨trees, rfl, htrees⟩ room
    cases room with
    | zero =>
      rw [nesting_toJson, if_neg (by omega)]
      rfl
    | succ room =>
      have hall : (∀ part ∈ carriedParts members, c.partNesting part ≤ room) ↔
          nesting c.toJson ≤ room + 1 := by
        rw [nesting_toJson_le_iff]
        refine ⟨fun hroom part => ?_, fun hroom part _ => hroom part⟩
        by_cases hpart : part ∈ carriedParts members
        · exact hroom part hpart
        · exact (omitted part hpart).partNesting_eq ▸ Nat.zero_le _
      have hresult : (carriedParts members).foldl c.copy (ofToken "") = c := by
        refine eq_of_agreeOn fun part => agreeOn_foldl_copy ?_
        by_cases hpart : part ∈ carriedParts members
        · exact .inl hpart
        · exact .inr (omitted part hpart).agreeOn
      rw [ofTree_succ, shape_object,
        readMembers_carried htrees once (fun _ _ => List.not_mem_nil) (ofToken ""), hresult]
      simp only [hall]

/-! ### Written conditions -/

/-- A member as it is written, with the part that it carries. -/
def writtenMember (m : String × Json) : Option Part × Member :=
  (partNames.lookup m.1, .written m)

theorem carriedParts_written {parts : List WrittenPart}
    (h : ∀ part ∈ parts, partNames.lookup part.name = some part.part) :
    carriedParts ((parts.flatMap fun part => member part.name part.value).map writtenMember) =
      (parts.filter (·.value.isSome)).map (·.part) := by
  induction parts with
  | nil => rfl
  | cons part parts ih =>
    obtain ⟨hpart, hparts⟩ := List.forall_mem_cons.mp h
    obtain ⟨name, part, value⟩ := part
    cases value with
    | none => exact ih hparts
    | some value =>
      have hrole : writtenMember (name, value) = (some part, .written (name, value)) :=
        congrArg (·, Member.written (name, value)) hpart
      rw [List.flatMap_cons, member, List.singleton_append, List.map_cons, hrole,
        carriedParts_some, ih hparts]
      rfl

theorem lacks_of_unwritten (c : Condition) {part : Part}
    (h : part ∉ (c.written.filter (·.value.isSome)).map (·.part)) : c.Lacks part := by
  obtain ⟨op, property, value, conditions, condition⟩ := c
  cases part with
  | op => simp [written] at h
  | property => simpa [written, Lacks] using h
  | value => simpa [written, Lacks] using h
  | conditions =>
    cases conditions with
    | none => rfl
    | some cs => simp [written, listToJson?] at h
  | condition =>
    cases condition with
    | none => rfl
    | some c => simp [written, optionToJson] at h

theorem name_written (c : Condition) : ∀ part ∈ c.written, part.name = part.part.name := by
  simp only [written, List.forall_mem_cons]
  exact ⟨rfl, rfl, rfl, rfl, rfl, fun _ h => by cases h⟩

/-- What is written for a list of conditions encloses what is written for each. -/
theorem enclosed_written (cs : List Condition) :
    Enclosed '[' ']' (fun item => Spaced item.2) (cs.map fun d => (d, Json.write d.toJson))
      (Json.write (.array (listToJson cs))) := by
  have hlist := Json.enclosed_write_array (listToJson cs)
  rw [listToJson_eq_map, Json.enclosed_map_iff] at hlist
  rw [listToJson_eq_map, Json.enclosed_map_iff]
  exact hlist.imp fun d text htext => htext ▸ .self text

/-- A member that is written for a condition whose number is finite and survives carries the part
that it is for, if what is written for the conditions below presents these. -/
theorem carries_written {c : Condition}
    (hvalue : ∀ x, c.value = some (.number x) → x.isFinite = true ∧ Survives x)
    (hcs : ∀ cs, c.conditions = some cs → ∀ d ∈ cs, Presents d (Json.write d.toJson))
    (hc : ∀ d, c.condition = some d → Presents d (Json.write d.toJson)) {part : WrittenPart}
    (hpart : part ∈ c.written) {m : String × Json} (hm : m ∈ member part.name part.value) :
    Carries c (some part.part) (.written m) := by
  obtain ⟨hsome, hpair⟩ := eq_of_mem_member hm
  have hnamed : (Member.written m).IsNamed part.name := by
    rw [hpair]
    exact Json.unescapes_flatMap part.name.toList
  have hfor : IsFor (.written m) part.part := .inl (name_written c part hpart ▸ hnamed)
  simp only [written, List.mem_cons, List.not_mem_nil, or_false] at hpart
  rcases hpart with rfl | rfl | rfl | rfl | rfl
  · refine .op hfor ?_
    rw [Member.written, ← Option.some.inj hsome]
    exact .text (Json.unescapes_flatMap c.op.toList)
  · obtain ⟨property, hproperty, htext⟩ := Option.map_eq_some_iff.mp hsome
    refine .property hfor hproperty ?_
    rw [Member.written, ← htext]
    exact .text (Json.unescapes_flatMap property.toList)
  · obtain ⟨literal, hliteral, htext⟩ := Option.map_eq_some_iff.mp hsome
    refine .value hfor hliteral ?_
    rw [Member.written, ← htext]
    exact isText_write fun x hx => hvalue x (hx ▸ hliteral)
  · cases hconditions : c.conditions with
    | none =>
      rw [hconditions] at hsome
      cases hsome
    | some cs =>
      rw [hconditions] at hsome
      have hlist := enclosed_written cs
      have hwrite : Json.write (.array (listToJson cs)) = (Member.written m).value :=
        congrArg Json.write (Option.some.inj hsome)
      rw [hwrite] at hlist
      refine .conditions hfor ?_ hlist (List.forall_mem_map.mpr (hcs cs hconditions))
      rw [hconditions, List.map_map]
      exact congrArg some (List.map_id cs).symm
  · cases hcondition : c.condition with
    | none =>
      rw [hcondition] at hsome
      cases hsome
    | some d =>
      rw [hcondition] at hsome
      refine .condition hfor hcondition ?_
      rw [Member.written, ← Option.some.inj hsome]
      exact hc d hcondition

/-- What is written for a condition with finite numbers presents it, if the numbers survive. -/
theorem presents_write {c : Condition} (h : c.Finite) (hsurvive : ∀ x ∈ c.numbers, Survives x) :
    Presents c (Json.write c.toJson) := by
  induction h with
  | @node c hfinite _ _ hcs hc =>
    obtain ⟨hliteral, hconditions, hcondition⟩ := forall_mem_numbers_iff.mp hsurvive
    have hvalue (x : Binary64) (hx : c.value = some (.number x)) :
        x.isFinite = true ∧ Survives x := ⟨hfinite x hx, hliteral x hx⟩
    have hcs (cs : List Condition) (h : c.conditions = some cs) (d : Condition) (hd : d ∈ cs) :
        Presents d (Json.write d.toJson) := hcs cs h d hd (hconditions cs h d hd)
    have hc (d : Condition) (h : c.condition = some d) : Presents d (Json.write d.toJson) :=
      hc d h (hcondition d h)
    have hparts := carriedParts_written (lookup_written c)
    have hobject : Enclosed '\x7b' '\x7d' (fun m => IsMember m.2)
        ((c.written.flatMap fun part => member part.name part.value).map writtenMember)
        (Json.write c.toJson) := by
      rw [toJson_eq, Json.enclosed_map_iff]
      exact (Json.enclosed_write_object _).imp fun m text htext =>
        htext ▸ Json.isMember_writeMember m
    refine .node hobject ?_ ?_ ?_
    · refine List.forall_mem_map.mpr fun m hm => ?_
      obtain ⟨part, hpart, hmember⟩ := List.mem_flatMap.mp hm
      have hname : m.1 = part.name := congrArg Prod.fst (eq_of_mem_member hmember).2
      rw [writtenMember, hname, lookup_written c part hpart]
      exact carries_written hvalue hcs hc hpart hmember
    · rw [hparts]
      exact (nodup_written c).sublist (List.filter_sublist.map _)
    · rw [hparts]
      exact fun part => lacks_of_unwritten c

/-- What is written for a condition with finite numbers presents it exactly if the numbers
survive. -/
theorem presents_write_iff {c : Condition} (h : c.Finite) :
    Presents c (Json.write c.toJson) ↔ ∀ x ∈ c.numbers, Survives x := by
  refine ⟨fun hpresents => ?_, presents_write h⟩
  obtain ⟨tree, hdecodes, rfl⟩ :=
    ((reads_presents c _ hpresents).and (Json.reads_write (allKept_toJson c))).exists_tree
  have hread := hdecodes (nesting c.toJson)
  rw [ofTree_toJson, if_pos (Nat.le_refl _), if_pos (Nat.le_refl _)] at hread
  rw [← reread_eq_stored_iff, (stored_eq_self_iff c).mpr h]
  cases hreread : c.reread with
  | none =>
    rw [hreread] at hread
    cases hread
  | some d =>
    rw [hreread] at hread
    exact congrArg some (Except.ok.inj hread)

/-! ### Parts that come twice -/

/-- A text in which some node has two members for one part. A node is the text itself, or lies below
one in a list of conditions or as a single condition. Nothing else is said of the text but that it
is a document. -/
inductive Doubled : List Char → Prop where
  /-- The node itself has two. -/
  | here {members : List Member} {text : List Char} {m m' : Member} {part : Part}
    (object : IsObject members text) (both : [m, m'].Sublist members) (isFor : IsFor m part)
    (isFor' : IsFor m' part) : Doubled text
  /-- A node of its list has. -/
  | item {members : List Member} {items : List (List Char)} {text item : List Char} {m : Member}
    (object : IsObject members text) (mem : m ∈ members) (isFor : IsFor m .conditions)
    (list : IsList items m.value) (mem' : item ∈ items) (doubled : Doubled item) : Doubled text
  /-- The node below it has. -/
  | operand {members : List Member} {text : List Char} {m : Member}
    (object : IsObject members text) (mem : m ∈ members) (isFor : IsFor m .condition)
    (doubled : Doubled m.value) : Doubled text

/-- A tree is read as no condition, nor taken for none. -/
structure Refused (tree : Tree) : Prop where
  /-- It is not null. -/
  ne_null : tree ≠ .null
  /-- It is no condition, within any depth of nesting. -/
  ofTree_ne (room : Nat) (c : Condition) : ofTree room tree ≠ .ok c

/-- An object is refused if its members are. -/
theorem refused_object {trees : List (Tree × Tree)}
    (h : ∀ room c,
      Tree.readMembers partNames (readPart room) [] (ofToken "") trees ≠ .ok c) :
    Refused (.object trees (.ok ())) := by
  refine ⟨nofun, fun room c hread => ?_⟩
  cases room with
  | zero => cases hread
  | succ room =>
    rw [ofTree_succ, shape_object] at hread
    exact h room c hread

/-- A list that holds what is refused is not read. -/
theorem optional_list_ne {trees : List Tree} {tree : Tree} (hmem : tree ∈ trees)
    (h : Refused tree) (room : Nat) (found : Option (List Condition)) :
    (Tree.array trees (.ok ())).optional (listOfTree room) ≠ .ok found := by
  intro hread
  rw [optional_of_ne_null _ (array_ne_null trees)] at hread
  cases room with
  | zero => cases hread
  | succ room =>
    rw [listOfTree] at hread
    cases hlist : trees.mapM (ofTree room) with
    | error fault =>
      rw [hlist] at hread
      cases hread
    | ok cs =>
      obtain ⟨c, -, hone⟩ := exists_of_mem_left (mapM_eq_ok_iff.mp hlist) hmem
      exact h.ofTree_ne room c hone

/-- **A text in which a part comes twice is refused**, whatever else it holds. -/
theorem reads_doubled {text : List Char} (h : Doubled text) : Reads text Refused := by
  induction h with
  | @here members text m m' part object both isFor isFor' =>
    refine (object.reads fun m hm => Json.reads_isJson (object.content m hm)).mono ?_
    rintro _ ⟨trees, rfl, htrees⟩
    refine refused_object fun room c hread => ?_
    have hpair := (pairwise_of_readMembers htrees hread).sublist both
    exact List.pairwise_pair.mp hpair part isFor isFor'
  | @item members items text item m object mem isFor list mem' _ ih =>
    have hitems : ∀ item' ∈ items, ∀ text, Spaced item' text →
        Json.ReadsSpaced text fun tree => item' = item → Refused tree := by
      intro item' hitem' text hspaced
      refine ⟨item', hspaced, ?_⟩
      by_cases heq : item' = item
      · subst heq
        exact ih.mono fun _ hrefused _ => hrefused
      · exact (Json.reads_isJson (list.content item' hitem')).mono fun _ _ h => absurd h heq
    refine (object.reads_with (Json.reads_array list.enclosed hitems)).mono ?_
    rintro _ ⟨trees, rfl, htrees⟩
    refine refused_object fun room c hread => ?_
    obtain ⟨-, tree, change, hvalue, hpart, -⟩ := of_readMembers_member htrees hread mem isFor
    obtain ⟨below, rfl, hbelow⟩ := hvalue rfl
    obtain ⟨found, hfound, -⟩ := bind_eq_ok_iff.mp hpart
    obtain ⟨tree, htree, hrefused⟩ := exists_of_mem_left hbelow mem'
    exact optional_list_ne htree (hrefused rfl) room found hfound
  | @operand members text m object mem isFor _ ih =>
    refine (object.reads_with ih).mono ?_
    rintro _ ⟨trees, rfl, htrees⟩
    refine refused_object fun room c hread => ?_
    obtain ⟨-, tree, change, hvalue, hpart, -⟩ := of_readMembers_member htrees hread mem isFor
    have hrefused := hvalue rfl
    obtain ⟨found, hfound, -⟩ := bind_eq_ok_iff.mp hpart
    rw [optional_of_ne_null _ hrefused.ne_null] at hfound
    cases hone : ofTree room tree with
    | error fault =>
      rw [hone] at hfound
      cases hfound
    | ok d => exact hrefused.ofTree_ne room d hone

/-! ### Whole texts -/

/-- A text of a document, with blanks around it, is read as the document is. -/
theorem exists_parse {core : List Char} {text : String} {P : Tree → Prop} (h : Reads core P)
    (htext : Spaced core text.toList) : ∃ tree, P tree ∧
      parse .json text = (ofTree 127 tree).mapError .json := by
  obtain ⟨tree, hP, hread⟩ := Json.read_spaced h htext
  rw [String.ofList_toList] at hread
  refine ⟨tree, hP, ?_⟩
  rw [parse, parseJson, hread, Json.Document.decode, Json.nestingLimit]
  cases ofTree 127 tree <;> rfl

/-- **Reading does not depend on the presentation.** What is written for a condition with finite
numbers presents it exactly if the numbers survive. Every text that presents a condition, with
blanks around it, is read as the condition exactly if lists and objects are nested at most 127 deep
in what is written for it, however deep they are in what is passed over. A text in which a part
comes twice at some node is not read. -/
theorem parse_presented {core : List Char} {text : String} (htext : Spaced core text.toList) :
    (∀ c : Condition, c.Finite →
      (Presents c c.serialize.toList ↔ ∀ x ∈ c.numbers, Survives x)) ∧
    (∀ c : Condition, Presents c core →
      (parse .json text = .ok c ↔ textNesting c.serialize ≤ 127)) ∧
    (Doubled core → ∃ fault, parse .json text = .error (.json fault)) := by
  refine ⟨fun c hfinite => ?_, fun c hpresents => ?_, fun hdoubled => ?_⟩
  · rw [serialize, Json.compact, String.toList_ofList]
    exact presents_write_iff hfinite
  · obtain ⟨tree, hdecodes, hparse⟩ := exists_parse (reads_presents c core hpresents) htext
    rw [hparse, hdecodes 127, serialize, Json.textNesting_compact (allKept_toJson c)]
    by_cases hdeep : nesting c.toJson ≤ 127
    · simp only [hdeep, iff_true]
      rfl
    · simp only [hdeep, iff_false]
      rintro ⟨⟩
  · obtain ⟨tree, hrefused, hparse⟩ := exists_parse (reads_doubled hdoubled) htext
    cases hread : ofTree 127 tree with
    | error fault =>
      rw [hparse, hread]
      exact ⟨fault, rfl⟩
    | ok c => exact absurd hread (hrefused.ofTree_ne 127 c)

/-- A comparison with a number that is read a step below what is written for it. -/
def shifted : Condition :=
  ⟨"equals", some "p", some (.number ⟨0x405785448d390ca6⟩), none, none⟩

/-- What is written for a finite number need not be read as the number. -/
theorem parse_shifted : shifted.Finite ∧ textNesting shifted.serialize ≤ 127 ∧
    shifted.serialize = "\x7b\"op\":\"equals\",\"property\":\"p\",\"value\":94.08230906077605\x7d" ∧
    parse .json shifted.serialize ≠ .ok shifted := by
  refine ⟨.node ?_ nofun nofun, by decide +kernel, by decide +kernel, fun hread => ?_⟩
  · rintro _ ⟨⟩
    rfl
  · have hnumbers : (parse .json shifted.serialize).toOption.map numbers =
        some [⟨0x405785448d390ca5⟩] := by decide +kernel
    rw [hread] at hnumbers
    cases hnumbers

/-- A comparison with a number, below another node. -/
def compared : Condition := ⟨"lessThan", some "p", some (.number ⟨0x4004000000000000⟩), none, none⟩

/-- The node above it. -/
def comparing : Condition := ⟨"all", none, none, some [compared], none⟩

theorem finite_comparing : comparing.Finite := by
  refine .node nofun ?_ nofun
  rintro _ ⟨⟩ d hd
  obtain rfl := List.mem_singleton.mp hd
  refine .node ?_ nofun nofun
  rintro _ ⟨⟩
  rfl

theorem survives_comparing : ∀ x ∈ comparing.numbers, Survives x :=
  List.forall_mem_singleton.mpr (Json.survives_of_isShort (by decide +kernel))

/-- The members of the comparison in another order. -/
def comparedText : String := "\x7b\"value\":2.5,\"property\":\"p\",\"op\":\"lessThan\"\x7d"

theorem presents_compared : Presents compared comparedText.toList := by
  have hobject : Enclosed '\x7b' '\x7d' (fun m => IsMember m.2)
      [(some Part.value, ⟨"value".toList, "2.5".toList⟩),
        (some Part.property, ⟨"property".toList, quote "p".toList⟩),
        (some Part.op, ⟨"op".toList, quote "lessThan".toList⟩)] _ :=
    .cons (Json.isMember_self _) (.cons (Json.isMember_self _) (.cons (Json.isMember_self _) .nil))
  refine Presents.node (show Enclosed _ _ _ _ comparedText.toList from hobject) ?_ (by decide)
    fun part hpart => ?_
  · simp only [List.forall_mem_cons]
    refine ⟨?_, ?_, ?_, List.forall_mem_nil _⟩
    · have htext : Json.write (Literal.number ⟨0x4004000000000000⟩).toJson = "2.5".toList := by
        decide +kernel
      refine .value (.inl (Json.unescapes_flatMap "value".toList)) rfl (htext ▸ isText_write ?_)
      rintro _ ⟨⟩
      exact ⟨rfl, Json.survives_of_isShort (by decide +kernel)⟩
    · exact .property (.inl (Json.unescapes_flatMap "property".toList)) rfl
        (.text (Json.unescapes_flatMap "p".toList))
    · exact .op (.inl (Json.unescapes_flatMap "op".toList))
        (.text (Json.unescapes_flatMap "lessThan".toList))
  · cases part with
    | op | property | value => exact absurd (by decide) hpart
    | conditions | condition => rfl

/-- The list of conditions first, then null for a condition that is absent, a member that is passed
over, and the token under its other name. -/
def reorderedText : String :=
  "\x7b\"conditions\":[" ++ comparedText ++ "],\"condition\":null,\"x\":[],\"operator\":\"all\"\x7d"

theorem presents_reordered : Presents comparing reorderedText.toList := by
  have hlist : Enclosed '[' ']' (fun item => Spaced item.2) [(compared, comparedText.toList)]
      _ := .cons (.self _) .nil
  have hobject : Enclosed '\x7b' '\x7d' (fun m => IsMember m.2)
      [(some Part.conditions, ⟨"conditions".toList, '[' :: (comparedText.toList ++ [']'])⟩),
        (some Part.condition, ⟨"condition".toList, "null".toList⟩),
        (none, ⟨"x".toList, "[]".toList⟩), (some Part.op, ⟨"operator".toList, quote "all".toList⟩)]
      _ :=
    .cons (Json.isMember_self _) (.cons (Json.isMember_self _) (.cons (Json.isMember_self _)
      (.cons (Json.isMember_self _) .nil)))
  refine Presents.node (show Enclosed _ _ _ _ reorderedText.toList from hobject) ?_ (by decide)
    fun part hpart => ?_
  · simp only [List.forall_mem_cons]
    refine ⟨?_, ?_, ?_, ?_, List.forall_mem_nil _⟩
    · exact .conditions (.inl (Json.unescapes_flatMap "conditions".toList)) rfl hlist
        (List.forall_mem_singleton.mpr presents_compared)
    · exact .null (.inl (Json.unescapes_flatMap "condition".toList)) (by decide) rfl rfl
    · exact .other (Json.unescapes_flatMap "x".toList) (by decide)
        (.array (.empty Json.areSpaces_nil) (List.forall_mem_nil _))
    · exact .op (.inr ⟨rfl, Json.unescapes_flatMap "operator".toList⟩)
        (.text (Json.unescapes_flatMap "all".toList))
  · cases part with
    | op | conditions => exact absurd (by decide) hpart
    | property | value | condition => rfl

/-- A token under both of its names. -/
def doubledText : String := "\x7b\"op\":\"all\",\"operator\":\"all\"\x7d"

theorem doubled_doubledText : Doubled doubledText.toList := by
  have hop : (Member.mk "op".toList (quote "all".toList)).IsNamed "op" :=
    Json.unescapes_flatMap "op".toList
  have hoperator : (Member.mk "operator".toList (quote "all".toList)).IsNamed "operator" :=
    Json.unescapes_flatMap "operator".toList
  have hfor : IsFor ⟨"op".toList, quote "all".toList⟩ .op := .inl hop
  have hall : IsJson (quote "all".toList) := .text (Json.unescapes_flatMap "all".toList).isQuoted
  have hobject : Enclosed '\x7b' '\x7d' IsMember
      [⟨"op".toList, quote "all".toList⟩, ⟨"operator".toList, quote "all".toList⟩] _ :=
    .cons (Json.isMember_self _) (.cons (Json.isMember_self _) .nil)
  refine Doubled.here ⟨show Enclosed _ _ _ _ doubledText.toList from hobject, ?_, ?_⟩
    (List.Sublist.refl _) hfor (.inr ⟨rfl, hoperator⟩)
  · exact List.forall_mem_cons.mpr ⟨hop.isQuoted, List.forall_mem_singleton.mpr hoperator.isQuoted⟩
  · exact List.forall_mem_cons.mpr ⟨hall, List.forall_mem_singleton.mpr hall⟩

theorem parse_presented_reordered : Presents comparing comparing.serialize.toList ∧
    parse .json comparing.serialize = .ok comparing ∧
    parse .json reorderedText = .ok comparing ∧
    ∃ fault, parse .json doubledText = .error (.json fault) := by
  have hnesting : textNesting comparing.serialize ≤ 127 := by decide +kernel
  obtain ⟨hwritten, hpresents, -⟩ := parse_presented (.self comparing.serialize.toList)
  obtain ⟨-, hreordered, -⟩ := parse_presented (.self reorderedText.toList)
  obtain ⟨-, -, hdoubled⟩ := parse_presented (.self doubledText.toList)
  have hserialize := (hwritten comparing finite_comparing).mpr survives_comparing
  exact ⟨hserialize, (hpresents comparing hserialize).mpr hnesting,
    (hreordered comparing presents_reordered).mpr hnesting, hdoubled doubled_doubledText⟩

end Conditions.Condition
