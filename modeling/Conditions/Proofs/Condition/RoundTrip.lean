import Conditions.Loading
import Conditions.Proofs.Evaluation.Walk
import Conditions.Proofs.Json.Nesting

/-!
# Written conditions are read

The text of a condition is read as the condition with null in place of the numbers that no text can
hold (`Condition.stored`) exactly if lists and objects are not nested too deep in it and the numbers
in it survive (`parse_serialize`); if they are nested too deep it is malformed. Whether or not its
numbers survive, the condition that a text is read as is made from the one that it is written for
number by number (`Condition.reread`). All depends on two things: the members of the object are read
one by one in the order in which they are written (`readMembers_flatMap`), and the room that a
reader has for a part is what the reader of the condition has, less one (`ofTree_toJson`).
-/

namespace Conditions

open Json (Tree Fault AllKept Survives numeralOf nesting textNesting itemsNesting membersNesting
  membersNesting_append)

/-! ### What a text keeps -/

/-- The literal that a text keeps of one: null in place of a number that is not finite. -/
def Literal.stored : Literal → Literal
  | .number x => if x.isFinite then .number x else .null
  | .null => .null
  | .bool b => .bool b
  | .text s => .text s

/-- The number that is read from what is written for a finite one, if it is finite. -/
def Binary64.reread (x : Binary64) : Option Binary64 :=
  if (numeralOf (.real x)).toBinary64.isFinite then some (numeralOf (.real x)).toBinary64 else none

/-- The literal that is read from what is written for one, if one is. -/
def Literal.reread : Literal → Option Literal
  | .number x => if x.isFinite then x.reread.map .number else some .null
  | .null => some .null
  | .bool b => some (.bool b)
  | .text s => some (.text s)

namespace Condition

mutual

/-- The condition that a text keeps of one: its literals are replaced by what a text keeps of
them. -/
def stored : Condition → Condition
  | ⟨op, property, value, conditions, condition⟩ =>
    ⟨op, property, value.map Literal.stored, storedList? conditions, storedOption condition⟩

/-- The conditions that a text keeps of a list. -/
def storedList : List Condition → List Condition
  | [] => []
  | c :: cs => stored c :: storedList cs

/-- What a text keeps of a list that may be absent. -/
def storedList? : Option (List Condition) → Option (List Condition)
  | none => none
  | some cs => some (storedList cs)

/-- What a text keeps of a condition that may be absent. -/
def storedOption : Option Condition → Option Condition
  | none => none
  | some c => some (stored c)

end

/-- All numbers in a condition are finite. -/
inductive Finite : Condition → Prop where
  /-- The number of a node is, and those of the conditions that it carries. -/
  | node {c : Condition} (value : ∀ x, c.value = some (.number x) → x.isFinite = true)
    (conditions : ∀ cs, c.conditions = some cs → ∀ d ∈ cs, Finite d)
    (condition : ∀ d, c.condition = some d → Finite d) : Finite c

/-- The number that a literal is, if it is there and is one. -/
def literalNumbers : Option Literal → List Binary64
  | some (.number x) => [x]
  | _ => []

mutual

/-- The numbers in a condition. -/
def numbers : Condition → List Binary64
  | ⟨_, _, value, conditions, condition⟩ =>
    literalNumbers value ++ listNumbers? conditions ++ optionNumbers condition

/-- The numbers in the conditions of a list. -/
def listNumbers : List Condition → List Binary64
  | [] => []
  | c :: cs => numbers c ++ listNumbers cs

/-- The numbers in a list that may be absent. -/
def listNumbers? : Option (List Condition) → List Binary64
  | none => []
  | some cs => listNumbers cs

/-- The numbers in a condition that may be absent. -/
def optionNumbers : Option Condition → List Binary64
  | none => []
  | some c => numbers c

end

theorem mem_listNumbers_iff {x : Binary64} {cs : List Condition} :
    x ∈ listNumbers cs ↔ ∃ c ∈ cs, x ∈ c.numbers := by
  induction cs with
  | nil => simp [listNumbers]
  | cons c cs ih => simp [listNumbers, ih]

/-- The numbers in a condition are that of its literal and those of the conditions below. -/
theorem forall_mem_numbers_iff {Q : Binary64 → Prop} {c : Condition} : (∀ x ∈ c.numbers, Q x) ↔
    (∀ x, c.value = some (.number x) → Q x) ∧
    (∀ cs, c.conditions = some cs → ∀ d ∈ cs, ∀ x ∈ d.numbers, Q x) ∧
    (∀ d, c.condition = some d → ∀ x ∈ d.numbers, Q x) := by
  obtain ⟨op, property, value, conditions, condition⟩ := c
  have hvalue : (∀ x ∈ literalNumbers value, Q x) ↔ ∀ x, value = some (.number x) → Q x := by
    rcases value with _ | _ | _ | _ | _ <;> simp [literalNumbers]
  have hconditions : (∀ x ∈ listNumbers? conditions, Q x) ↔
      ∀ cs, conditions = some cs → ∀ d ∈ cs, ∀ x ∈ d.numbers, Q x := by
    cases conditions with
    | none => simp [listNumbers?]
    | some cs =>
      simp only [listNumbers?, mem_listNumbers_iff, Option.some.injEq, forall_eq']
      exact ⟨fun h d hd x hx => h x ⟨d, hd, hx⟩, fun h x ⟨d, hd, hx⟩ => h d hd x hx⟩
  have hcondition : (∀ x ∈ optionNumbers condition, Q x) ↔
      ∀ d, condition = some d → ∀ x ∈ d.numbers, Q x := by
    cases condition <;> simp [optionNumbers]
  simp only [numbers, List.forall_mem_append, hvalue, hconditions, hcondition, and_assoc]

/-! ### What is read -/

/-- What is read from what is written for a literal that may be absent. -/
def rereadLiteral : Option Literal → Option (Option Literal)
  | none => some none
  | some literal => literal.reread.map some

mutual

/-- The condition that is read from what is written for one, if one is. -/
def reread : Condition → Option Condition
  | ⟨op, property, value, conditions, condition⟩ => do
    let value ← rereadLiteral value
    let conditions ← rereadList? conditions
    let condition ← rereadOption condition
    some ⟨op, property, value, conditions, condition⟩

/-- The conditions that are read from what is written for a list. -/
def rereadList : List Condition → Option (List Condition)
  | [] => some []
  | c :: cs => do
    let c ← reread c
    let cs ← rereadList cs
    some (c :: cs)

/-- What is read from what is written for a list that may be absent. -/
def rereadList? : Option (List Condition) → Option (Option (List Condition))
  | none => some none
  | some cs => (rereadList cs).map some

/-- What is read from what is written for a condition that may be absent. -/
def rereadOption : Option Condition → Option (Option Condition)
  | none => some none
  | some c => (reread c).map some

end

/-! ### The object of a condition -/

/-- A part of a condition as it is written: its name, and its value if it is there. -/
structure WrittenPart where
  /-- The name of the member. -/
  name : String
  /-- The part that goes by the name. -/
  part : Part
  /-- The value, if the part is there. -/
  value : Option Json

/-- The parts of a condition in the order in which they are written. -/
def written (c : Condition) : List WrittenPart :=
  [⟨"op", .op, some (.text c.op)⟩, ⟨"property", .property, c.property.map .text⟩,
    ⟨"value", .value, c.value.map Literal.toJson⟩,
    ⟨"conditions", .conditions, listToJson? c.conditions⟩,
    ⟨"condition", .condition, optionToJson c.condition⟩]

theorem toJson_eq (c : Condition) :
    c.toJson = .object (c.written.flatMap fun part => member part.name part.value) := by
  obtain ⟨op, property, value, conditions, condition⟩ := c
  simp [toJson, written, member]

theorem listToJson_eq_map (cs : List Condition) : listToJson cs = cs.map toJson := by
  induction cs with
  | nil => rfl
  | cons c cs ih => rw [listToJson, ih, List.map_cons]

theorem eq_of_mem_member {name : String} {value : Option Json} {m : String × Json}
    (h : m ∈ member name value) : value = some m.2 ∧ m = (name, m.2) := by
  cases value with
  | none => cases h
  | some value =>
    rw [List.mem_singleton.mp h]
    exact ⟨rfl, rfl⟩

theorem allKept_literal (literal : Literal) : AllKept literal.toJson := by
  cases literal with
  | null => exact .null
  | bool b => exact .bool b
  | text s => exact .text s
  | number x =>
    rw [Literal.toJson, Json.ofBinary64]
    split
    · next hx => exact .number hx
    · exact .null

/-- A condition is written with numbers that are kept. -/
theorem allKept_toJson (c : Condition) : AllKept c.toJson := by
  induction c using Condition.induction with
  | node c hcs hc =>
    rw [toJson_eq]
    refine .object fun m hm => ?_
    obtain ⟨part, hpart, hmember⟩ := List.mem_flatMap.mp hm
    have hvalue := (eq_of_mem_member hmember).1
    simp only [written, List.mem_cons, List.not_mem_nil, or_false] at hpart
    rcases hpart with rfl | rfl | rfl | rfl | rfl
    · rw [← Option.some.inj hvalue]
      exact .text c.op
    · obtain ⟨property, -, h⟩ := Option.map_eq_some_iff.mp hvalue
      rw [← h]
      exact .text property
    · obtain ⟨literal, -, h⟩ := Option.map_eq_some_iff.mp hvalue
      rw [← h]
      exact allKept_literal literal
    · cases hsome : c.conditions with
      | none =>
        rw [hsome] at hvalue
        cases hvalue
      | some cs =>
        rw [hsome] at hvalue
        rw [← Option.some.inj hvalue, listToJson_eq_map]
        refine .array fun item hitem => ?_
        obtain ⟨d, hd, rfl⟩ := List.mem_map.mp hitem
        exact hcs cs hsome d hd
    · cases hsome : c.condition with
      | none =>
        rw [hsome] at hvalue
        cases hvalue
      | some d =>
        rw [hsome] at hvalue
        rw [← Option.some.inj hvalue]
        exact hc d hsome

/-! ### How deep a condition is nested -/

/-- The nesting of a value that may be absent. -/
def valueNesting (value : Option Json) : Nat := value.elim 0 nesting

theorem membersNesting_member (name : String) (value : Option Json) :
    membersNesting (member name value) = valueNesting value := by
  cases value with
  | none => rfl
  | some value => exact Nat.max_eq_left (Nat.zero_le _)

theorem nesting_literal (literal : Literal) : nesting literal.toJson = 0 := by
  cases literal with
  | number x =>
    rw [Literal.toJson, Json.ofBinary64]
    split <;> rfl
  | null | bool | text => rfl

/-- A condition is one level deeper than the deeper of the two parts that hold conditions. -/
theorem nesting_toJson (c : Condition) :
    nesting c.toJson =
      max (valueNesting (listToJson? c.conditions)) (valueNesting (optionToJson c.condition)) +
        1 := by
  obtain ⟨op, property, value, conditions, condition⟩ := c
  have hproperty : valueNesting (property.map .text) = 0 := by cases property <;> rfl
  have hvalue : valueNesting (value.map Literal.toJson) = 0 := by
    cases value with
    | none => rfl
    | some literal => exact nesting_literal literal
  simp only [toJson, nesting, membersNesting, membersNesting_append, membersNesting_member,
    hproperty, hvalue, Nat.zero_max]

/-! ### Reading the members of an object -/

section Members

variable {φ α ι : Type} [DecidableEq φ] {fields : List (String × φ)}
  {read : φ → Tree → Except Fault (α → α)}

/-- A member for a field that has not come before changes the state as its value asks. -/
theorem readMembers_cons {name : String} {field : φ} {seen : List φ}
    (hname : fields.lookup name = some field) (hseen : field ∉ seen) (start : α) (value : Tree)
    (members : List (Tree × Tree)) :
    Tree.readMembers fields read seen start ((.text (Json.Leaf.ok name), value) :: members) =
      read field value >>= fun change =>
        Tree.readMembers fields read (field :: seen) (change start) members := by
  rw [Tree.readMembers, Tree.name, Json.Leaf.ok, ok_bind, hname]
  exact if_neg hseen

/-- Members that are written one after another, each for a field of its own, are read one after
another. -/
theorem readMembers_flatMap (name : ι → String) (field : ι → φ) (value : ι → Option Json)
    (parts : List ι) (seen : List φ) (start : α)
    (hnames : ∀ part ∈ parts, fields.lookup (name part) = some (field part))
    (hdistinct : (parts.map field).Nodup) (hseen : ∀ part ∈ parts, field part ∉ seen) :
    Tree.readMembers fields read seen start
        (Tree.ofMembers (parts.flatMap fun part => member (name part) (value part))) =
      parts.foldlM (fun state part =>
        match value part with
        | none => .ok state
        | some value => (read (field part) (Tree.ofJson value)).map (· state)) start := by
  induction parts generalizing seen start with
  | nil => rfl
  | cons part parts ih =>
    obtain ⟨hname, hnames⟩ := List.forall_mem_cons.mp hnames
    obtain ⟨hfield, hfields⟩ := List.forall_mem_cons.mp hseen
    obtain ⟨hnew, hdistinct⟩ := List.nodup_cons.mp hdistinct
    rw [List.flatMap_cons, List.foldlM_cons]
    cases hvalue : value part with
    | none => exact ih seen start hnames hdistinct hfields
    | some v =>
      have hrest : ∀ other ∈ parts, field other ∉ field part :: seen := by
        intro other hother hmem
        rcases List.mem_cons.mp hmem with heq | hmem
        · exact hnew (heq ▸ List.mem_map_of_mem hother)
        · exact hfields other hother hmem
      show Tree.readMembers fields read seen start
        ((.text (Json.Leaf.ok (name part)), Tree.ofJson v) :: Tree.ofMembers _) =
          (read (field part) (Tree.ofJson v)).map (· start) >>= _
      rw [readMembers_cons hname hfield]
      cases read (field part) (Tree.ofJson v) with
      | error fault => rfl
      | ok change => exact ih (field part :: seen) (change start) hnames hdistinct hrest

/-- An object that is closed is read as its members are. -/
theorem shape_object (order : List φ) (start : α) (members : List (Tree × Tree)) :
    Tree.shape order fields start read (.object members (.ok ())) =
      Tree.readMembers fields read [] start members := by
  rw [Tree.shape]
  cases Tree.readMembers fields read [] start members <;> rfl

end Members

/-! ### Reading a condition -/

/-- What the reader of a condition does with a part, within a depth of nesting. -/
def readPart (room : Nat) : Part → Tree → Except Fault (Condition → Condition)
  | .op, tree => do
    let op ← tree.string
    .ok fun c => { c with op }
  | .property, tree => do
    let property ← tree.optional Tree.string
    .ok fun c => { c with property }
  | .value, tree => do
    let value ← tree.literal room
    .ok fun c => { c with value := some value }
  | .conditions, tree => do
    let conditions ← tree.optional (listOfTree room)
    .ok fun c => { c with conditions }
  | .condition, tree => do
    let condition ← tree.optional (ofTree room)
    .ok fun c => { c with condition }

theorem ofTree_succ (room : Nat) (tree : Tree) :
    ofTree (room + 1) tree = tree.shape parts partNames (.ofToken "") (readPart room) := by
  rw [ofTree]
  congr 1
  funext part tree
  cases part <;> rfl

/-- A written part is read into a condition that lacks it. -/
def readWritten (room : Nat) (state : Condition) (part : WrittenPart) : Except Fault Condition :=
  match part.value with
  | none => .ok state
  | some value => (readPart room part.part (Tree.ofJson value)).map (· state)

theorem lookup_written (c : Condition) :
    ∀ part ∈ c.written, partNames.lookup part.name = some part.part := by
  simp only [written, List.forall_mem_cons]
  exact ⟨rfl, rfl, rfl, rfl, rfl, fun _ h => by cases h⟩

theorem nodup_written (c : Condition) : (c.written.map (·.part)).Nodup :=
  (by decide : parts.Nodup)

/-- A written condition is read part by part. -/
theorem ofTree_eq_foldlM (room : Nat) (c : Condition) :
    ofTree (room + 1) (Tree.ofJson c.toJson) =
      c.written.foldlM (readWritten room) (ofToken "") := by
  rw [ofTree_succ, toJson_eq, Tree.ofJson, shape_object]
  exact readMembers_flatMap WrittenPart.name WrittenPart.part WrittenPart.value c.written []
    (ofToken "") (lookup_written c) (nodup_written c) fun _ _ h => by cases h

/-- What is there, or else the fault of a malformed text. -/
def orMalformed {α : Type} (found : Option α) : Except Fault α :=
  found.elim (.error .malformed) .ok

/-- What reading a written condition gives, within a depth of nesting. -/
def ReadsBack (c : Condition) : Prop :=
  ∀ room, ofTree room (Tree.ofJson c.toJson) =
    orMalformed (if nesting c.toJson ≤ room then c.reread else none)

/-- Written conditions are read one by one. -/
theorem mapM_ofTree {cs : List Condition} (h : ∀ c ∈ cs, ReadsBack c) (room : Nat) :
    (Tree.ofItems (listToJson cs)).mapM (ofTree room) =
      orMalformed (if itemsNesting (listToJson cs) ≤ room then rereadList cs else none) := by
  induction cs with
  | nil =>
    rw [listToJson, itemsNesting, if_pos (Nat.zero_le _)]
    rfl
  | cons c cs ih =>
    obtain ⟨hc, hcs⟩ := List.forall_mem_cons.mp h
    simp only [listToJson, Tree.ofItems, itemsNesting, rereadList, List.mapM_cons, hc room, ih hcs,
      Nat.max_le]
    by_cases hdeep : nesting c.toJson ≤ room
    · by_cases hrest : itemsNesting (listToJson cs) ≤ room
      · rw [if_pos hdeep, if_pos hrest, if_pos ⟨hdeep, hrest⟩]
        cases c.reread <;> cases rereadList cs <;> rfl
      · rw [if_pos hdeep, if_neg hrest, if_neg (not_and_of_not_right _ hrest)]
        cases c.reread <;> rfl
    · rw [if_neg hdeep, if_neg (not_and_of_not_left _ hdeep)]
      rfl

/-- A list of written conditions takes one level, and leaves the rest to them. -/
theorem listOfTree_toJson {cs : List Condition} (h : ∀ c ∈ cs, ReadsBack c) (room : Nat) :
    listOfTree room (Tree.ofJson (.array (listToJson cs))) =
      orMalformed (if nesting (.array (listToJson cs)) ≤ room then rereadList cs else none) := by
  cases room with
  | zero => rfl
  | succ room =>
    rw [Tree.ofJson, listOfTree, mapM_ofTree h]
    simp only [nesting, Nat.add_le_add_iff_right]
    cases (if itemsNesting (listToJson cs) ≤ room then rereadList cs else none) <;> rfl

theorem literal_toJson (room : Nat) (literal : Literal) :
    (Tree.ofJson literal.toJson).literal room = orMalformed literal.reread := by
  cases literal with
  | null => cases room <;> rfl
  | bool b => cases room <;> rfl
  | text s => cases room <;> rfl
  | number x =>
    rw [Literal.toJson, Json.ofBinary64, Literal.reread]
    split
    · rw [Tree.ofJson, Json.value_numeralOf, Binary64.reread]
      split
      · cases room <;> rfl
      · cases room <;> rfl
    · cases room <;> rfl

theorem optional_array {α : Type} (read : Tree → Except Fault α) (items : List Json) :
    (Tree.ofJson (.array items)).optional read =
      (read (Tree.ofJson (.array items))).map some := rfl

theorem optional_toJson {α : Type} (read : Tree → Except Fault α) (c : Condition) :
    (Tree.ofJson c.toJson).optional read = (read (Tree.ofJson c.toJson)).map some := by
  rw [toJson_eq]
  rfl

section Steps

variable (room : Nat) (op : String) (property : Option String) (value : Option Literal)
  (conditions : Option (List Condition)) (condition : Option Condition)

theorem readWritten_some (state : Condition) (name : String) (part : Part) (value : Json) :
    readWritten room state ⟨name, part, some value⟩ =
      (readPart room part (Tree.ofJson value)).map (· state) := rfl

theorem readWritten_property :
    readWritten room (ofToken op) ⟨"property", .property, property.map .text⟩ =
      .ok ⟨op, property, none, none, none⟩ := by
  cases property <;> rfl

theorem readWritten_value :
    readWritten room ⟨op, property, none, none, none⟩ ⟨"value", .value, value.map Literal.toJson⟩ =
      orMalformed ((rereadLiteral value).map fun value => ⟨op, property, value, none, none⟩) := by
  cases value with
  | none => rfl
  | some literal =>
    rw [Option.map_some, readWritten_some, readPart, literal_toJson, rereadLiteral]
    cases literal.reread <;> rfl

variable {conditions condition}

theorem readWritten_conditions (h : ∀ cs, conditions = some cs → ∀ c ∈ cs, ReadsBack c) :
    readWritten room ⟨op, property, value, none, none⟩
        ⟨"conditions", .conditions, listToJson? conditions⟩ =
      orMalformed ((if valueNesting (listToJson? conditions) ≤ room then rereadList? conditions
        else none).map fun conditions => ⟨op, property, value, conditions, none⟩) := by
  cases conditions with
  | none =>
    rw [if_pos (show valueNesting (listToJson? none) ≤ room from Nat.zero_le _)]
    rfl
  | some cs =>
    rw [listToJson?, readWritten_some, readPart, optional_array, listOfTree_toJson (h cs rfl),
      valueNesting, Option.elim_some, rereadList?]
    split
    · cases rereadList cs <;> rfl
    · rfl

theorem readWritten_condition (h : ∀ c, condition = some c → ReadsBack c) :
    readWritten room ⟨op, property, value, conditions, none⟩
        ⟨"condition", .condition, optionToJson condition⟩ =
      orMalformed ((if valueNesting (optionToJson condition) ≤ room then rereadOption condition
        else none).map fun condition => ⟨op, property, value, conditions, condition⟩) := by
  cases condition with
  | none =>
    rw [if_pos (show valueNesting (optionToJson none) ≤ room from Nat.zero_le _)]
    rfl
  | some c =>
    rw [optionToJson, readWritten_some, readPart, optional_toJson, h c rfl room, valueNesting,
      Option.elim_some, rereadOption]
    split
    · cases c.reread <;> rfl
    · rfl

end Steps

/-- A written condition is read within a depth of nesting exactly if it is not nested deeper and its
numbers are read; else it is malformed. -/
theorem ofTree_toJson (c : Condition) : ReadsBack c := by
  induction c using Condition.induction with
  | node c hcs hc =>
    intro room
    rw [nesting_toJson]
    cases room with
    | zero =>
      rw [if_neg (by omega), toJson_eq]
      rfl
    | succ room =>
      obtain ⟨op, property, value, conditions, condition⟩ := c
      have hop : readWritten room (ofToken "") ⟨"op", .op, some (.text op)⟩ =
          .ok (ofToken op) := rfl
      rw [ofTree_eq_foldlM, written, reread]
      simp only [List.foldlM_cons, List.foldlM_nil, hop, readWritten_property, readWritten_value,
        ok_bind, Nat.add_le_add_iff_right, Nat.max_le]
      cases rereadLiteral value with
      | none => split <;> rfl
      | some value =>
        rw [Option.map_some, orMalformed, Option.elim_some, ok_bind,
          readWritten_conditions _ _ _ _ hcs]
        by_cases hlist : valueNesting (listToJson? conditions) ≤ room
        · rw [if_pos hlist]
          cases rereadList? conditions with
          | none => split <;> rfl
          | some conditions =>
            rw [Option.map_some, orMalformed, Option.elim_some, ok_bind,
              readWritten_condition _ _ _ _ hc]
            by_cases hone : valueNesting (optionToJson condition) ≤ room
            · rw [if_pos hone, if_pos ⟨hlist, hone⟩]
              cases rereadOption condition <;> rfl
            · rw [if_neg hone, if_neg (not_and_of_not_right _ hone)]
              rfl
        · rw [if_neg hlist, if_neg (not_and_of_not_left _ hlist)]
          rfl

/-! ### The text of a condition -/

/-- What is read from the text of a condition. -/
theorem parseJson_serialize (c : Condition) : parseJson c.serialize =
    orMalformed (if textNesting c.serialize ≤ Json.nestingLimit then c.reread else none) := by
  rw [parseJson, serialize, Json.read_compact (allKept_toJson c),
    Json.textNesting_compact (allKept_toJson c), Json.Document.decode]
  dsimp only
  rw [ofTree_toJson c]
  cases (if nesting c.toJson ≤ Json.nestingLimit then c.reread else none) <;> rfl

theorem reread_literal_iff (literal : Literal) : literal.reread = some literal.stored ↔
    ∀ x, literal = .number x → Survives x := by
  cases literal with
  | number x =>
    simp only [Literal.number.injEq, forall_eq', Json.survives_iff, Literal.reread,
      Literal.stored, Binary64.reread]
    by_cases hx : x.isFinite = true
    · simp only [hx, if_true, true_imp_iff]
      constructor
      · intro h
        split at h
        · exact Literal.number.inj (Option.some.inj h)
        · cases h
      · intro h
        rw [h, if_pos hx]
        rfl
    · simp [hx]
  | null => exact ⟨fun _ _ => nofun, fun _ => rfl⟩
  | bool b => exact ⟨fun _ _ => nofun, fun _ => rfl⟩
  | text s => exact ⟨fun _ _ => nofun, fun _ => rfl⟩

theorem rereadList_iff (cs : List Condition) : rereadList cs = some (storedList cs) ↔
    ∀ c ∈ cs, c.reread = some c.stored := by
  induction cs with
  | nil => exact ⟨fun _ _ => nofun, fun _ => rfl⟩
  | cons c cs ih =>
    rw [List.forall_mem_cons, ← ih, rereadList, storedList]
    cases c.reread <;> cases rereadList cs <;> simp

/-- A text is read as all that it keeps of a condition exactly if the numbers in it survive. -/
theorem reread_eq_stored_iff (c : Condition) :
    c.reread = some c.stored ↔ ∀ x ∈ c.numbers, Survives x := by
  induction c using Condition.induction with
  | node c hcs hc =>
    obtain ⟨op, property, value, conditions, condition⟩ := c
    have hvalue : rereadLiteral value = some (value.map Literal.stored) ↔
        ∀ x, value = some (.number x) → Survives x := by
      cases value with
      | none => simp [rereadLiteral]
      | some literal => simp [rereadLiteral, ← reread_literal_iff]
    have hconditions : rereadList? conditions = some (storedList? conditions) ↔
        ∀ cs, conditions = some cs → ∀ d ∈ cs, ∀ x ∈ d.numbers, Survives x := by
      cases conditions with
      | none => simp [rereadList?, storedList?]
      | some cs =>
        simp only [rereadList?, storedList?, Option.map_eq_some_iff, Option.some.injEq,
          exists_eq_right, rereadList_iff, forall_eq']
        exact forall₂_congr (hcs cs rfl)
    have hcondition : rereadOption condition = some (storedOption condition) ↔
        ∀ d, condition = some d → ∀ x ∈ d.numbers, Survives x := by
      cases condition with
      | none => simp [rereadOption, storedOption]
      | some d => simp [rereadOption, storedOption, ← hc d rfl]
    rw [forall_mem_numbers_iff, ← hvalue, ← hconditions, ← hcondition, reread, stored]
    cases rereadLiteral value <;> cases rereadList? conditions <;>
      cases rereadOption condition <;> simp

theorem stored_literal_eq_self_iff (literal : Literal) :
    literal.stored = literal ↔ ∀ x, literal = .number x → x.isFinite = true := by
  cases literal with
  | number x =>
    rw [Literal.stored]
    split
    · next h =>
      refine ⟨fun _ y hy => ?_, fun _ => rfl⟩
      cases hy
      exact h
    · next h => exact ⟨nofun, fun hfinite => absurd (hfinite x rfl) h⟩
  | null => exact ⟨fun _ _ => nofun, fun _ => rfl⟩
  | bool b => exact ⟨fun _ _ => nofun, fun _ => rfl⟩
  | text s => exact ⟨fun _ _ => nofun, fun _ => rfl⟩

theorem storedList_eq_self_iff (cs : List Condition) :
    storedList cs = cs ↔ ∀ c ∈ cs, c.stored = c := by
  induction cs with
  | nil => exact ⟨fun _ _ => nofun, fun _ => rfl⟩
  | cons c cs ih => rw [storedList, List.cons_eq_cons, ih, List.forall_mem_cons]

/-- A text keeps all of a condition exactly if the numbers in it are finite. -/
theorem stored_eq_self_iff (c : Condition) : c.stored = c ↔ c.Finite := by
  induction c using Condition.induction with
  | node c hcs hc =>
    obtain ⟨op, property, value, conditions, condition⟩ := c
    have hvalue : value.map Literal.stored = value ↔
        ∀ x, value = some (.number x) → x.isFinite = true := by
      cases value with
      | none => simp
      | some literal => simp [stored_literal_eq_self_iff]
    have hconditions : storedList? conditions = conditions ↔
        ∀ cs, conditions = some cs → ∀ d ∈ cs, d.Finite := by
      cases conditions with
      | none => simp [storedList?]
      | some cs =>
        simp only [storedList?, Option.some.injEq, storedList_eq_self_iff]
        refine ⟨fun h cs' hcs' d hd => ?_, fun h d hd => (hcs cs rfl d hd).mpr (h cs rfl d hd)⟩
        subst hcs'
        exact (hcs cs rfl d hd).mp (h d hd)
    have hcondition : storedOption condition = condition ↔
        ∀ d, condition = some d → d.Finite := by
      cases condition with
      | none => simp [storedOption]
      | some d => simp [storedOption, hc d rfl]
    rw [stored, mk.injEq, hvalue, hconditions, hcondition]
    constructor
    · rintro ⟨-, -, h₁, h₂, h₃⟩
      exact .node h₁ h₂ h₃
    · rintro ⟨h₁, h₂, h₃⟩
      exact ⟨rfl, rfl, h₁, h₂, h₃⟩

/-- **What the text of a condition is read as.** It is what a text keeps of the condition exactly if
lists and objects are nested at most 127 deep in the text and the finite numbers in it survive. It
is malformed if lists and objects are nested deeper. A text keeps all of a condition with finite
numbers; a null literal is not taken for none, nor an empty list. -/
theorem parse_serialize (c : Condition) :
    (parse .json c.serialize = .ok c.stored ↔
      textNesting c.serialize ≤ 127 ∧ ∀ x ∈ c.numbers, Survives x) ∧
    (127 < textNesting c.serialize → parse .json c.serialize = .error (.json .malformed)) ∧
    (c.stored = c ↔ c.Finite) ∧
    (c.stored.value = none ↔ c.value = none) ∧
    (c.stored.conditions = none ↔ c.conditions = none) ∧
    (c.stored.conditions = some [] ↔ c.conditions = some []) := by
  have hparse : parse .json c.serialize =
      (orMalformed (if textNesting c.serialize ≤ 127 then c.reread else none)).mapError .json := by
    rw [parse, parseJson_serialize, Json.nestingLimit]
  rw [hparse, ← reread_eq_stored_iff]
  refine ⟨?_, fun hdeep => ?_, stored_eq_self_iff c, ?_, ?_, ?_⟩
  · by_cases hdeep : textNesting c.serialize ≤ 127
    · cases c.reread <;> simp [hdeep, orMalformed, Except.mapError]
    · simp [hdeep, orMalformed, Except.mapError]
  · rw [if_neg (by omega)]
    rfl
  · obtain ⟨op, property, value, conditions, condition⟩ := c
    cases value <;> simp [stored]
  · obtain ⟨op, property, value, conditions, condition⟩ := c
    cases conditions <;> simp [stored, storedList?]
  · obtain ⟨op, property, value, conditions, condition⟩ := c
    rcases conditions with _ | _ | _ <;> simp [stored, storedList?, storedList]

/-- A comparison with two and a half, and one with infinity, which is lost. -/
def unbounded : Condition :=
  ⟨"any", none, some .null, some [⟨"lessThan", some "p", some (.number ⟨0x4004000000000000⟩), none,
    none⟩, ⟨"lessThan", some "p", some (.number ⟨0x7ff0000000000000⟩), some [], none⟩], none⟩

theorem survives_unbounded : ∀ x ∈ unbounded.numbers, Survives x :=
  List.forall_mem_cons.mpr ⟨Json.survives_of_isShort (by decide +kernel),
    List.forall_mem_singleton.mpr nofun⟩

theorem parse_serialize_unbounded : textNesting unbounded.serialize ≤ 127 ∧
    parse .json unbounded.serialize = .ok ⟨"any", none, some .null,
      some [⟨"lessThan", some "p", some (.number ⟨0x4004000000000000⟩), none, none⟩,
        ⟨"lessThan", some "p", some .null, some [], none⟩], none⟩ := by
  have hnesting : textNesting unbounded.serialize ≤ 127 := by decide +kernel
  exact ⟨hnesting, (parse_serialize unbounded).1.mpr ⟨hnesting, survives_unbounded⟩⟩

end Condition

end Conditions
