import Conditions.Condition.Json
import Conditions.Proofs.Json.Contents

/-!
# Texts of literals

A literal has many texts: a number may be written with any digits that are read as it, and the
characters of a text in several ways (`Literal.IsText`). Each of them is read as the literal, and
what a scalar of a document is read as is a literal that it is a text of (`reads_scalar`). So a
text is one of no more than one literal (`Literal.IsText.unique`).
-/

namespace Conditions

open Json

variable {l m : Literal} {s : List Char}

/-- A text is one of a literal. -/
inductive Literal.IsText : Literal → List Char → Prop where
  /-- The word for the null value. -/
  | null : IsText .null ['n', 'u', 'l', 'l']
  /-- The word for the truth value. -/
  | bool (b : Bool) : IsText (.bool b) (boolText b)
  /-- A numeral that is read as the number. -/
  | number {n : Numeral} {s : List Char} {number : JsonNumber} (numeral : n.IsText s)
    (value : n.value = .ok number) : IsText (.number number.toBinary64) s
  /-- The text between quotes, escaped in any way. -/
  | text {s : List Char} {text : String} (h : Unescapes s text.toList) :
    IsText (.text text) (quote s)

theorem Literal.IsText.isJson (h : l.IsText s) : IsJson s := by
  cases h with
  | null => exact .null
  | bool b => exact .bool b
  | number numeral _ => exact .number numeral
  | text h => exact .text h.isQuoted

/-- What is written for a literal is one of its texts, if its number is finite and survives. -/
theorem isText_write (h : ∀ x, l = .number x → x.isFinite = true ∧ Survives x) :
    l.IsText (write l.toJson) := by
  cases l with
  | null => exact .null
  | bool b => exact .bool b
  | text text => exact .text (unescapes_flatMap text.toList)
  | number x =>
    obtain ⟨hx, hsurvives⟩ := h x rfl
    have hproper : (numeralOf (.real x)).Proper := proper_numeralOf (show Kept (.real x) from hx)
    have hvalue : (numeralOf (.real x)).value = .ok (.real x) := by
      rw [value_numeralOf, survives_iff.mp hsurvives hx, if_pos hx]
    have hwrite : write (Literal.number x).toJson = (numeralOf (.real x)).text := by
      rw [Literal.toJson, Json.ofBinary64, if_pos hx, text_numeralOf]
      rfl
    rw [hwrite]
    exact .number hproper.isText_text hvalue

/-! ### Reading literals -/

/-- A tree holds a literal, whatever room there is. -/
def Json.Tree.Holds (tree : Tree) (l : Literal) : Prop :=
  ∃ v, Literal.ofJson? v = some l ∧ ∀ room, tree.toJson room = .ok v

theorem Json.Tree.Holds.literal {tree : Tree} (h : tree.Holds l) (room : Nat) :
    tree.literal room = .ok l := by
  obtain ⟨v, hv, hread⟩ := h
  rw [Tree.literal, hread, ok_bind, hv]

/-- A text of a literal is read as the literal. -/
theorem Literal.IsText.reads (h : l.IsText s) : Reads s (Tree.Holds · l) := by
  cases h with
  | null =>
    refine reads_null.mono ?_
    rintro _ rfl
    exact ⟨.null, rfl, fun room => by cases room <;> rfl⟩
  | bool b =>
    refine (reads_bool b).mono ?_
    rintro _ rfl
    exact ⟨.bool b, rfl, fun room => by cases room <;> rfl⟩
  | @number n s number numeral value =>
    refine (reads_number numeral).mono ?_
    rintro _ rfl
    refine ⟨.number number, rfl, fun room => ?_⟩
    rw [value]
    cases room <;> rfl
  | @text s text h =>
    refine (reads_text h).mono ?_
    rintro _ rfl
    exact ⟨.text text, rfl, fun room => by cases room <;> rfl⟩

/-- A text is one of no more than one literal. -/
theorem Literal.IsText.unique (h : l.IsText s) (h' : m.IsText s) : l = m := by
  obtain ⟨tree, hl, hm⟩ := (h.reads.and h'.reads).exists_tree
  exact Except.ok.inj ((hl.literal 0).symm.trans (hm.literal 0))

/-! ### Scalars -/

/-- A text is a value that holds no others. -/
inductive Json.IsScalar : List Char → Prop where
  /-- The word for the null value. -/
  | null : IsScalar ['n', 'u', 'l', 'l']
  /-- The word for a truth value. -/
  | bool (b : Bool) : IsScalar (boolText b)
  /-- A number. -/
  | number {n : Numeral} {s : List Char} (h : n.IsText s) : IsScalar s
  /-- A text between quotes. -/
  | text {s : List Char} (h : IsQuoted s) : IsScalar (quote s)

theorem Json.IsScalar.isJson (h : IsScalar s) : IsJson s := by
  cases h with
  | null => exact .null
  | bool b => exact .bool b
  | number h => exact .number h
  | text h => exact .text h

/-- The literal that a tree is read as, if it is read at all, has the text. -/
def Json.Tree.ReadAs (tree : Tree) (s : List Char) : Prop :=
  ∀ room, Ensures (tree.toJson room) fun v => ∃ l, Literal.ofJson? v = some l ∧ l.IsText s

theorem ensures_toJson_number {leaf : Leaf JsonNumber} {P : Json → Prop}
    (h : Ensures leaf.content fun n => P (.number n)) (room : Nat) :
    Ensures ((Tree.number leaf).toJson room) P := by
  cases room <;> exact h.map

theorem ensures_toJson_text {leaf : Leaf String} {P : Json → Prop}
    (h : Ensures leaf.content fun s => P (.text s)) (room : Nat) :
    Ensures ((Tree.text leaf).toJson room) P := by
  cases room <;> exact h.map

/-- **What a scalar is read as is a literal that it is a text of**, if it is read at all. -/
theorem reads_scalar (h : IsScalar s) : Reads s (Tree.ReadAs · s) := by
  have hliteral {l : Literal} (hl : l.IsText s) : Reads s (Tree.ReadAs · s) := by
    refine hl.reads.mono ?_
    rintro tree ⟨v, hv, hread⟩ room _ hroom
    rw [hread] at hroom
    cases hroom
    exact ⟨l, hv, hl⟩
  cases h with
  | null => exact hliteral .null
  | bool b => exact hliteral (.bool b)
  | @number n s h =>
    refine (reads_number h).mono ?_
    rintro _ rfl room
    refine ensures_toJson_number (fun number hnumber => ?_) room
    exact ⟨_, rfl, .number h hnumber⟩
  | text h =>
    refine (reads_quote h).mono ?_
    rintro _ ⟨leaf, rfl, hleaf⟩ room
    exact ensures_toJson_text (fun text htext => ⟨_, rfl, .text (hleaf.sound text htext)⟩) room

/-! ### Whatever a document is -/

/-- A text between quotes is read as the text that it stands for. -/
theorem reads_literal_text {text : String} (h : (Literal.text text).IsText s) :
    Reads s (· = .text (Leaf.ok text)) := by
  cases h with
  | text h => exact reads_text h

/-- A document that is a text between quotes is read as the text that it stands for. -/
theorem reads_if_text (h : IsJson s) :
    Reads s fun tree => ∀ text, (Literal.text text).IsText s → tree = .text (Leaf.ok text) := by
  by_cases htext : ∃ text, (Literal.text text).IsText s
  · obtain ⟨text, htext⟩ := htext
    refine (reads_literal_text htext).mono fun tree htree other hother => ?_
    rw [htree, Literal.text.inj (htext.unique hother)]
  · exact (reads_isJson h).mono fun _ _ text ht => absurd ⟨text, ht⟩ htext

/-- A document that is a scalar is read as a literal that it is a text of. -/
theorem reads_if_scalar (h : IsJson s) : Reads s fun tree => IsScalar s → tree.ReadAs s := by
  by_cases hscalar : IsScalar s
  · exact (reads_scalar hscalar).mono fun _ hread _ => hread
  · exact (reads_isJson h).mono fun _ _ hs => absurd hs hscalar

end Conditions
