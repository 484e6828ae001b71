import Conditions.Proofs.Comparison.Standing
import Conditions.Proofs.Condition.Presentations
import Conditions.Proofs.Evaluation.Outcomes
import Conditions.Proofs.Number.Values
import Conditions.Proofs.Record.Members

/-!
# Equality of scalars in texts

Whether a field of a record equals the literal of a condition can be told from the two texts alone
(`SameScalar`): the words are the same, the texts between quotes stand for the same characters, or
the numerals, rounded to the nearest numbers, have the same value. Of numerals this is true if the
reader rounds them to the nearest numbers (`RoundsToNearest`). That a record keeps whole numbers
apart from others, while a literal is rounded when it is read, makes no difference, since either way
a numeral is rounded (`sameScalar_iff`).
-/

namespace Conditions

open Json (Member IsMember IsObjectText IsScalar Enclosed Unescapes Numeral boolText quote)

namespace Binary64

variable {x y : Binary64}

/-- Numbers are equal if they have the same value. -/
theorem eq_iff_value (hx : x.isNaN = false) (hy : y.isNaN = false) :
    x.eq y = true ↔ x.value = y.value := by
  rw [eq_iff_key hx hy, key_eq_key_iff_value]

end Binary64

/-! ### Scalars -/

/-- Two texts are the same scalar. -/
inductive SameScalar : List Char → List Char → Prop where
  /-- Both are null. -/
  | null : SameScalar ['n', 'u', 'l', 'l'] ['n', 'u', 'l', 'l']
  /-- Both are the same truth value. -/
  | bool (b : Bool) : SameScalar (boolText b) (boolText b)
  /-- Both stand for the same characters. -/
  | text {s t : List Char} {text : String} (h : Unescapes s text.toList)
    (h' : Unescapes t text.toList) : SameScalar (quote s) (quote t)
  /-- The magnitudes of both, rounded to the nearest number, have the same value. -/
  | number {n m : Numeral} {s t : List Char} {x y : Binary64} (hn : n.IsText s) (hm : m.IsText t)
    (hx : Binary64.IsRounded n.negative n.magnitude x)
    (hy : Binary64.IsRounded m.negative m.magnitude y) (h : x.value = y.value) : SameScalar s t

/-- A text is rounded to the nearest number, if it is a numeral. -/
def RoundsToNearest (s : List Char) : Prop := ∀ n : Numeral, n.IsText s → n.RoundsToNearest

/-- A text of a short numeral is rounded to the nearest number. -/
theorem RoundsToNearest.of_isShort {n : Numeral} {s : List Char} (hs : n.IsText s)
    (h : n.IsShort) : RoundsToNearest s := by
  intro m hm _
  rw [hm.unique hs]
  exact h.isRounded

/-- A text that is a numeral is one of the number nearest to it, if it is rounded to that. -/
theorem Literal.IsText.eq_number {l : Literal} {s : List Char} {n : Numeral} {x : Binary64}
    (h : l.IsText s) (hs : RoundsToNearest s) (hn : n.IsText s)
    (hx : Binary64.IsRounded n.negative n.magnitude x) : l = .number x := by
  obtain ⟨_, rfl, v, hv, hread⟩ := ((Json.reads_number hn).and h.reads).exists_tree
  cases hvalue : n.value with
  | error fault =>
    rw [hvalue] at hread
    cases hread 0
  | ok number =>
    rw [hvalue] at hread
    cases hread 0
    rw [← (Json.isRounded_value (hs n hn) hvalue).unique hx]
    exact (Option.some.inj hv).symm

/-- **Two texts are the same scalar if what they are read as is equal.** -/
theorem sameScalar_iff {l m : Literal} {a b : List Char} (ha : l.IsText a) (hb : m.IsText b)
    (hnearest : RoundsToNearest a) (hnearest' : RoundsToNearest b) :
    SameScalar a b ↔ (Operand.ofLiteral (some l)).equal (.ofLiteral (some m)) = true := by
  constructor
  · intro h
    cases h with
    | null =>
      rw [ha.unique .null, hb.unique .null]
      rfl
    | bool c =>
      rw [ha.unique (.bool c), hb.unique (.bool c)]
      cases c <;> rfl
    | text h h' =>
      rw [ha.unique (.text h), hb.unique (.text h')]
      exact beq_self_eq_true _
    | number hn hm hx hy h =>
      rw [ha.eq_number hnearest hn hx, hb.eq_number hnearest' hm hy]
      exact (Binary64.eq_iff_value hx.isNaN hy.isNaN).mpr h
  · intro h
    cases ha with
    | null =>
      cases hb with
      | null => exact .null
      | bool | number | text => cases h
    | bool c =>
      cases hb with
      | bool d =>
        obtain rfl : c = d := by simpa [Operand.ofLiteral, Operand.equal] using h
        exact .bool c
      | null | number | text => cases h
    | @number n _ _ hn hvalue =>
      cases hb with
      | @number m _ _ hm hvalue' =>
        have hx := Json.isRounded_value (hnearest n hn) hvalue
        have hy := Json.isRounded_value (hnearest' m hm) hvalue'
        exact .number hn hm hx hy ((Binary64.eq_iff_value hx.isNaN hy.isNaN).mp h)
      | null | bool | text => cases h
    | text hs =>
      cases hb with
      | text ht =>
        obtain rfl := eq_of_beq (show (_ == _) = true from h)
        exact .text hs ht
      | null | bool | number => cases h

/-! ### Nodes that compare a field with a literal -/

/-- Among the members of a node are its token, the field that it compares and the text of the
literal that it compares the field with. -/
structure Condition.Compares (op name : String) (b : List Char) (members : List Member) : Prop where
  /-- The token. -/
  op : ∃ m ∈ members, IsFor m .op ∧ (Literal.text op).IsText m.value
  /-- The field. -/
  property : ∃ m ∈ members, IsFor m .property ∧ (Literal.text name).IsText m.value
  /-- The literal. -/
  value : ∃ m ∈ members, IsFor m .value ∧ m.value = b

/-- A node that is read has the token, the field and the literal of its members. -/
theorem Condition.Compares.of_parse {op name : String} {b : List Char} {members : List Member}
    {text : String} {c : Condition} (h : Compares op name b members) (hb : IsScalar b)
    (htext : IsObjectText members text) (hread : parse .json text = .ok c) :
    c.op = op ∧ c.property = some name ∧ ∃ l : Literal, c.value = some l ∧ l.IsText b := by
  obtain ⟨core, hobject, hspaced⟩ := htext
  obtain ⟨_, ⟨trees, rfl, htrees⟩, hparse⟩ := exists_parse (hobject.reads fun m hm =>
    (reads_if_text (hobject.content m hm)).and (reads_if_scalar (hobject.content m hm))) hspaced
  rw [hparse, mapError_eq_ok_iff, ofTree_succ, shape_object] at hread
  obtain ⟨m, hm, hfor, hop⟩ := h.op
  obtain ⟨-, tree, change, ⟨htree, -⟩, hpart, hagree⟩ := of_readMembers_member htrees hread hm hfor
  rw [htree op hop] at hpart
  cases hpart
  have hop : c.op = op := hagree c
  obtain ⟨m, hm, hfor, hname⟩ := h.property
  obtain ⟨-, tree, change, ⟨htree, -⟩, hpart, hagree⟩ := of_readMembers_member htrees hread hm hfor
  rw [htree name hname] at hpart
  cases hpart
  have hproperty : c.property = some name := hagree c
  obtain ⟨m, hm, hfor, rfl⟩ := h.value
  obtain ⟨-, tree, change, ⟨-, htree⟩, hpart, hagree⟩ := of_readMembers_member htrees hread hm hfor
  obtain ⟨literal, hliteral, hchange⟩ := bind_eq_ok_iff.mp hpart
  cases hchange
  have hvalue : c.value = some literal := hagree c
  obtain ⟨v, hv, hliteral⟩ := bind_eq_ok_iff.mp hliteral
  obtain ⟨l, hl, htext⟩ := htree hb _ v hv
  rw [hl] at hliteral
  cases hliteral
  exact ⟨hop, hproperty, literal, hvalue, htext⟩

/-- A field that is a literal is the operand that the literal is. -/
theorem ofField_of_ofJson? {v : Json} {l : Literal} (h : Literal.ofJson? v = some l) :
    Operand.ofField (some v) = .ofLiteral (some l) := by
  cases v <;> cases h <;> rfl

namespace Evaluator

/-- **Equality of scalars in two texts.** Where the last member of a record under a name is a
scalar, and a node compares the field of this name with a scalar, the node holds if both are the
same, and its negation if they are not. Where the record has no such member the scalars are not
equal, null included. -/
theorem evaluate_scalars {name op : String} {b : List Char} {recordMembers members : List Member}
    {recordText text : String} {record : Record} {c : Condition}
    (hrecordText : IsObjectText recordMembers recordText)
    (hrecord : Record.parse .json recordText = .ok record)
    (htext : IsObjectText members text) (hmembers : Condition.Compares op name b members)
    (hb : IsScalar b) (hc : Condition.parse .json text = .ok c) :
    (∀ m, Record.LastNamed name m recordMembers → IsScalar m.value →
      RoundsToNearest m.value → RoundsToNearest b → ∃ same, (same = true ↔ SameScalar m.value b) ∧
        (standard.resolver op = .ok (.compare .equals) →
          standard.evaluate record c = .ok same) ∧
        (standard.resolver op = .ok (.compare .notEquals) →
          standard.evaluate record c = .ok !same)) ∧
    ((∀ m ∈ recordMembers, ¬ m.IsNamed name) →
      (standard.resolver op = .ok (.compare .equals) →
        standard.evaluate record c = .ok false) ∧
      (standard.resolver op = .ok (.compare .notEquals) →
        standard.evaluate record c = .ok true)) := by
  obtain ⟨hop, hproperty, l, hvalue, hl⟩ := hmembers.of_parse hb htext hc
  have hevaluate {comparison : Comparison}
      (h : standard.resolver op = .ok (.compare comparison)) : standard.evaluate record c =
        .ok (comparison.holds .loose (.ofField (record.get? name)) (.ofLiteral (some l))) := by
    rw [evaluate_eq rfl, role, hop, h]
    dsimp only
    rw [comparisonHolds, hproperty, hvalue]
    rfl
  refine ⟨fun m hm hscalar hnearest hnearest' => ?_, fun hunnamed => ?_⟩
  · obtain ⟨core, hobject, hspaced⟩ := hrecordText
    obtain ⟨tree, v, hread, htree, hget⟩ := Record.get?_of_lastNamed ⟨core, hobject, hspaced⟩
      (fun m hm => reads_if_scalar (hobject.content m hm)) hrecord hm
    obtain ⟨k, hk, ha⟩ := hread hscalar 126 v htree
    rw [hget, ofField_of_ofJson? hk] at hevaluate
    exact ⟨_, (sameScalar_iff ha hl hnearest hnearest').symm, hevaluate, hevaluate⟩
  · rw [Record.get?_of_unnamed hrecordText hrecord hunnamed] at hevaluate
    have habsent : Operand.absent.equal (.ofLiteral (some l)) = false := by cases l <;> rfl
    refine ⟨fun h => ?_, fun h => ?_⟩
    · rw [hevaluate h]
      exact congrArg Except.ok habsent
    · rw [hevaluate h]
      exact congrArg (fun same => Except.ok !same) habsent

/-- Five in tenths. -/
def tenths : Numeral := ⟨false, ['5', '0'], none, some (-1)⟩

/-- Five with a digit after the point. -/
def pointed : Numeral := ⟨false, ['5'], some ['0'], none⟩

theorem isText_tenths : tenths.IsText "50e-1".toList := by
  have hwhole : Numeral.AreDigits tenths.whole :=
    ⟨List.cons_ne_nil _ _, Decimal.areDigits_iff_all.mpr rfl⟩
  have hfraction : ∀ ds, tenths.fraction = some ds → Numeral.AreDigits ds := by
    rintro _ ⟨⟩
  exact (Numeral.Proper.mk hwhole (by decide) hfraction).isText_text

theorem isText_pointed : pointed.IsText "5.0".toList := by
  have hwhole : Numeral.AreDigits pointed.whole :=
    ⟨List.cons_ne_nil _ _, Decimal.areDigits_iff_all.mpr rfl⟩
  have hfraction : ∀ ds, pointed.fraction = some ds → Numeral.AreDigits ds := by
    rintro _ ⟨⟩
    exact ⟨List.cons_ne_nil _ _, Decimal.areDigits_iff_all.mpr rfl⟩
  exact (Numeral.Proper.mk hwhole (by decide) hfraction).isText_text

theorem isShort_tenths : tenths.IsShort := by decide

theorem isShort_pointed : pointed.IsShort := by decide

/-- Both are read as fifty divided by ten. -/
theorem sameScalar_tenths_pointed : SameScalar "50e-1".toList "5.0".toList := by
  have hvalue : tenths.toBinary64 = pointed.toBinary64 := rfl
  exact .number isText_tenths isText_pointed isShort_tenths.isRounded isShort_pointed.isRounded
    (congrArg Binary64.value hvalue)

/-- A record with a field that comes twice. -/
def tenthsText : String := "\x7b\"n\":null,\"n\":50e-1\x7d"

/-- A node that compares the field with five. -/
def pointedText : String := "\x7b\"op\":\"equals\",\"property\":\"n\",\"value\":5.0\x7d"

theorem isObjectText_tenths : IsObjectText
    [⟨"n".toList, "null".toList⟩, ⟨"n".toList, "50e-1".toList⟩] tenthsText := by
  have hobject : Enclosed '\x7b' '\x7d' IsMember
      [⟨"n".toList, "null".toList⟩, ⟨"n".toList, "50e-1".toList⟩] _ :=
    .cons (Json.isMember_self _) (.cons (Json.isMember_self _) .nil)
  refine ⟨_, ⟨show Enclosed _ _ _ _ tenthsText.toList from hobject, ?_, ?_⟩, .self _⟩
  · simp only [List.forall_mem_cons]
    exact ⟨(Json.unescapes_flatMap "n".toList).isQuoted,
      (Json.unescapes_flatMap "n".toList).isQuoted, List.forall_mem_nil _⟩
  · simp only [List.forall_mem_cons]
    exact ⟨.null, .number isText_tenths, List.forall_mem_nil _⟩

theorem isObjectText_pointed : IsObjectText
    [⟨"op".toList, quote "equals".toList⟩, ⟨"property".toList, quote "n".toList⟩,
      ⟨"value".toList, "5.0".toList⟩] pointedText := by
  have hobject : Enclosed '\x7b' '\x7d' IsMember
      [⟨"op".toList, quote "equals".toList⟩, ⟨"property".toList, quote "n".toList⟩,
        ⟨"value".toList, "5.0".toList⟩] _ :=
    .cons (Json.isMember_self _) (.cons (Json.isMember_self _) (.cons (Json.isMember_self _) .nil))
  have hquoted (text : String) := (Json.unescapes_flatMap text.toList).isQuoted
  refine ⟨_, ⟨show Enclosed _ _ _ _ pointedText.toList from hobject, ?_, ?_⟩, .self _⟩
  · simp only [List.forall_mem_cons]
    exact ⟨hquoted "op", hquoted "property", hquoted "value", List.forall_mem_nil _⟩
  · simp only [List.forall_mem_cons]
    exact ⟨.text (hquoted "equals"), .text (hquoted "n"), .number isText_pointed,
      List.forall_mem_nil _⟩

theorem evaluate_scalars_tenths : ∃ record c, Record.parse .json tenthsText = .ok record ∧
    Condition.parse .json pointedText = .ok c ∧ standard.evaluate record c = .ok true := by
  have hrecord : (Record.parse .json tenthsText).toOption.isSome = true := by decide +kernel
  have hcondition : (Condition.parse .json pointedText).toOption.isSome = true := by
    decide +kernel
  cases hr : Record.parse .json tenthsText with
  | error failure =>
    rw [hr] at hrecord
    cases hrecord
  | ok record =>
    cases hc : Condition.parse .json pointedText with
    | error failure =>
      rw [hc] at hcondition
      cases hcondition
    | ok c =>
      have hcompares : Condition.Compares "equals" "n" "5.0".toList
          [⟨"op".toList, quote "equals".toList⟩, ⟨"property".toList, quote "n".toList⟩,
            ⟨"value".toList, "5.0".toList⟩] := by
        refine ⟨⟨_, .head _, .inl ?_, .text ?_⟩, ⟨_, .tail _ (.head _), .inl ?_, .text ?_⟩,
          ⟨_, .tail _ (.tail _ (.head _)), .inl ?_, rfl⟩⟩
        · exact Json.unescapes_flatMap "op".toList
        · exact Json.unescapes_flatMap "equals".toList
        · exact Json.unescapes_flatMap "property".toList
        · exact Json.unescapes_flatMap "n".toList
        · exact Json.unescapes_flatMap "value".toList
      obtain ⟨hpresent, -⟩ := evaluate_scalars isObjectText_tenths hr isObjectText_pointed
        hcompares (.number isText_pointed) hc
      obtain ⟨same, hsame, hequals, -⟩ := hpresent ⟨"n".toList, "50e-1".toList⟩
        (.later (.here (Json.unescapes_flatMap "n".toList) (List.forall_mem_nil _)))
        (.number isText_tenths) (.of_isShort isText_tenths isShort_tenths)
        (.of_isShort isText_pointed isShort_pointed)
      exact ⟨record, c, rfl, rfl,
        (hequals rfl).trans (congrArg _ (hsame.mpr sameScalar_tenths_pointed))⟩

end Evaluator

end Conditions
