import Conditions.Proofs.Comparison.Standing
import Conditions.Proofs.Text.Blocks

/-!
# Chains of comparisons

Two texts are ordered by their units, any two operands in the loose order by the keys of their
numbers. Where all pairs of three operands are ordered by ranks of one kind (`RankedBy`), the order
goes on from the first over the second to the third (`RankedBy.chained`). In the strict mode pairs
of different kinds have no order, so it always does. In the loose mode it does unless exactly two of
the three are texts: then one pair is ordered by units and the others by numbers (`chains`).

The order of texts by units is a strict total order, and is told by the blocks of their characters
(`text_order`).
-/

namespace Conditions

/-- The key of a word that stands for a number. -/
def Binary64.key? (x : Binary64) : Option Int := if x.isNaN then none else some x.key

namespace Operand

variable {κ : Type} [LinearOrder κ] {mode : OrderingMode} {rank : Operand → Option κ}
  {a b c : Operand}

/-! ### Ranks -/

/-- Two operands are ordered by their ranks. An operand without a rank has no order. -/
structure RankedBy (mode : OrderingMode) (rank : Operand → Option κ) (a b : Operand) : Prop where
  /-- The one is less if its rank is. -/
  lessThan_iff : Comparison.lessThan.holds mode a b = true ↔
    ∃ k l, rank a = some k ∧ rank b = some l ∧ k < l
  /-- The one is at most the other if its rank is. -/
  lessThanOrEqual_iff : Comparison.lessThanOrEqual.holds mode a b = true ↔
    ∃ k l, rank a = some k ∧ rank b = some l ∧ k ≤ l

/-! ### Chains -/

/-- The order goes on from the first operand over the second to the third. -/
structure Chained (mode : OrderingMode) (a b c : Operand) : Prop where
  /-- Less than what is less. -/
  less_less : Comparison.lessThan.holds mode a b = true →
    Comparison.lessThan.holds mode b c = true → Comparison.lessThan.holds mode a c = true
  /-- At most what is at most. -/
  most_most : Comparison.lessThanOrEqual.holds mode a b = true →
    Comparison.lessThanOrEqual.holds mode b c = true →
    Comparison.lessThanOrEqual.holds mode a c = true
  /-- At most what is less. -/
  most_less : Comparison.lessThanOrEqual.holds mode a b = true →
    Comparison.lessThan.holds mode b c = true → Comparison.lessThan.holds mode a c = true
  /-- Less than what is at most. -/
  less_most : Comparison.lessThan.holds mode a b = true →
    Comparison.lessThanOrEqual.holds mode b c = true → Comparison.lessThan.holds mode a c = true

/-- **Operands ordered by one rank are chained.** -/
theorem RankedBy.chained (hab : RankedBy mode rank a b) (hbc : RankedBy mode rank b c)
    (hac : RankedBy mode rank a c) : Chained mode a b c := by
  -- the rank of the second operand is one and the same in both comparisons
  have hmiddle {r r' r'' : κ → κ → Prop} (htrans : ∀ k l m, r k l → r' l m → r'' k m)
      (h : ∃ k l, rank a = some k ∧ rank b = some l ∧ r k l)
      (h' : ∃ l m, rank b = some l ∧ rank c = some m ∧ r' l m) :
      ∃ k m, rank a = some k ∧ rank c = some m ∧ r'' k m := by
    obtain ⟨k, l, hk, hl, hkl⟩ := h
    obtain ⟨l', m, hl', hm, hlm⟩ := h'
    obtain rfl : l = l' := Option.some.inj (hl.symm.trans hl')
    exact ⟨k, m, hk, hm, htrans k l m hkl hlm⟩
  constructor <;>
    simp only [hab.lessThan_iff, hbc.lessThan_iff, hac.lessThan_iff, hab.lessThanOrEqual_iff,
      hbc.lessThanOrEqual_iff, hac.lessThanOrEqual_iff]
  · exact hmiddle fun _ _ _ => lt_trans
  · exact hmiddle fun _ _ _ => le_trans
  · exact hmiddle fun _ _ _ => lt_of_le_of_lt
  · exact hmiddle fun _ _ _ => lt_of_lt_of_le

/-! ### The two kinds of rank -/

/-- The units of a text. -/
def units? : Operand → Option (List Nat)
  | .text s => some (textUnits s)
  | _ => none

/-- The key of the number that an operand enters the loose order as, if it is one. -/
def key? (a : Operand) : Option Int := a.toNumber?.bind Binary64.key?

theorem rankedBy_texts (mode : OrderingMode) (s t : String) :
    RankedBy mode units? (.text s) (.text t) := by
  constructor
  · rw [Comparison.holds, below?_texts, beq_iff_eq, Option.some.injEq, textPrecedes_iff]
    simp [units?]
  · rw [Comparison.holds, below?_texts, beq_iff_eq, Option.some.injEq, ← Bool.not_eq_true,
      textPrecedes_iff, not_lt]
    simp [units?]

theorem numberBelow?_eq_some_iff {x y : Binary64} {verdict : Bool} :
    numberBelow? x y = some verdict ↔
      ∃ k l, x.key? = some k ∧ y.key? = some l ∧ decide (k < l) = verdict := by
  unfold numberBelow? Binary64.lt Binary64.key?
  by_cases hx : x.isNaN = true
  · simp [hx]
  · by_cases hy : y.isNaN = true
    · simp [hy]
    · simp [hx, hy]

/-- Operands without an order of texts are ordered by the keys of their numbers. -/
theorem rankedBy_keys
    (forth : ∀ verdict, a.below? mode b = some verdict ↔
      ∃ k l, a.key? = some k ∧ b.key? = some l ∧ decide (k < l) = verdict)
    (back : ∀ verdict, b.below? mode a = some verdict ↔
      ∃ k l, b.key? = some k ∧ a.key? = some l ∧ decide (k < l) = verdict) :
    RankedBy mode key? a b := by
  constructor
  · rw [Comparison.holds, beq_iff_eq, forth]
    simp only [decide_eq_true_iff]
  · rw [Comparison.holds, beq_iff_eq, back]
    simp only [decide_eq_false_iff_not, not_lt]
    constructor
    · rintro ⟨l, k, hl, hk, hle⟩
      exact ⟨k, l, hk, hl, hle⟩
    · rintro ⟨k, l, hk, hl, hle⟩
      exact ⟨l, k, hl, hk, hle⟩

theorem rankedBy_numbers (mode : OrderingMode) (x y : Binary64) :
    RankedBy mode key? (.number x) (.number y) := by
  refine rankedBy_keys (fun verdict => ?_) fun verdict => ?_
  · rw [below?_numbers, numberBelow?_eq_some_iff]
    rfl
  · rw [below?_numbers, numberBelow?_eq_some_iff]
    rfl

theorem below?_loose_eq_some_iff (h : ¬ BothTexts a b) (verdict : Bool) :
    a.below? .loose b = some verdict ↔
      ∃ k l, a.key? = some k ∧ b.key? = some l ∧ decide (k < l) = verdict := by
  rw [below?_loose h, key?, key?]
  cases a.toNumber? with
  | none => simp
  | some x =>
    cases b.toNumber? with
    | none => simp
    | some y => exact numberBelow?_eq_some_iff

theorem rankedBy_loose (h : ¬ BothTexts a b) : RankedBy .loose key? a b :=
  rankedBy_keys (below?_loose_eq_some_iff h) (below?_loose_eq_some_iff fun h' => h h'.symm)

/-! ### Operands that are chained -/

/-- Operands are chained if they are whenever both steps of the chain have an order. -/
theorem chained_of_ordered (h : Ordered a b → Ordered b c → Chained .strict a b c) :
    Chained .strict a b c := by
  have hless {a b : Operand} (h : Comparison.lessThan.holds .strict a b = true) :
      Ordered a b := by
    by_contra hnot
    rw [Comparison.holds, below?_strict_eq_none_iff.mpr hnot] at h
    cases h
  have hmost {a b : Operand} (h : Comparison.lessThanOrEqual.holds .strict a b = true) :
      Ordered a b := by
    by_contra hnot
    rw [Comparison.holds, below?_strict_eq_none_iff.mpr fun h => hnot h.symm] at h
    cases h
  exact ⟨fun hab hbc => (h (hless hab) (hless hbc)).less_less hab hbc,
    fun hab hbc => (h (hmost hab) (hmost hbc)).most_most hab hbc,
    fun hab hbc => (h (hmost hab) (hless hbc)).most_less hab hbc,
    fun hab hbc => (h (hless hab) (hmost hbc)).less_most hab hbc⟩

theorem chained_texts (mode : OrderingMode) (s t u : String) :
    Chained mode (.text s) (.text t) (.text u) :=
  (rankedBy_texts mode s t).chained (rankedBy_texts mode t u) (rankedBy_texts mode s u)

/-- In the strict mode all operands are chained. -/
theorem chained_strict (a b c : Operand) : Chained .strict a b c := by
  refine chained_of_ordered fun hab hbc => ?_
  cases hab with
  | texts s t =>
    cases hbc with
    | texts _ u => exact chained_texts .strict s t u
  | @numbers x y hx hy =>
    cases hbc with
    | @numbers _ z _ hz =>
      exact (rankedBy_numbers .strict x y).chained (rankedBy_numbers .strict y z)
        (rankedBy_numbers .strict x z)

/-- In the loose mode operands are chained of which no two are texts. -/
theorem chained_loose (hab : ¬ BothTexts a b) (hbc : ¬ BothTexts b c) (hac : ¬ BothTexts a c) :
    Chained .loose a b c :=
  (rankedBy_loose hab).chained (rankedBy_loose hbc) (rankedBy_loose hac)

/-- Whether an operand is a text. -/
def isText : Operand → Bool
  | .text _ => true
  | _ => false

theorem isText_iff : a.isText = true ↔ ∃ s, a = .text s := by
  cases a <;> simp [isText]

theorem not_bothTexts (h : a.isText = false ∨ b.isText = false) : ¬ BothTexts a b := by
  rintro ⟨s, t, rfl, rfl⟩
  rcases h with h | h <;> cases h

/-- How many of three operands are texts. -/
def textCount (a b c : Operand) : Nat := [a, b, c].countP isText

theorem chained_of_textCount (h : textCount a b c = 3 ∨ textCount a b c ≤ 1) :
    Chained .loose a b c := by
  simp only [textCount, List.countP_cons, List.countP_nil] at h
  cases ha : a.isText <;> cases hb : b.isText <;> cases hc : c.isText <;>
    simp only [ha, hb, hc, Bool.false_eq_true, if_true, if_false] at h
  case true.true.true =>
    obtain ⟨s, rfl⟩ := isText_iff.mp ha
    obtain ⟨t, rfl⟩ := isText_iff.mp hb
    obtain ⟨u, rfl⟩ := isText_iff.mp hc
    exact chained_texts .loose s t u
  case true.true.false | true.false.true | false.true.true => omega
  all_goals
    exact chained_loose (not_bothTexts (by simp [ha, hb])) (not_bothTexts (by simp [hb, hc]))
      (not_bothTexts (by simp [ha, hc]))

theorem lessThan_asymm (h : Comparison.lessThan.holds mode a b = true) :
    Comparison.lessThan.holds mode b a = false := by
  obtain ⟨standing, hverdicts⟩ := exists_verdicts mode a b
  obtain ⟨hforth, hback⟩ := Prod.mk.inj hverdicts
  rw [Comparison.holds, ← hforth] at h
  rw [Comparison.holds, ← hback]
  cases standing with
  | below => rfl
  | apart | above | level => cases h

end Operand

open Operand

namespace Comparison

/-- **Where chains of comparisons are safe**. No operand is less than itself, and of two operands
at most one is less than the other. In the strict mode the order goes on over any three operands; in
the loose mode over three texts, and over three of which at most one is a text. -/
theorem chains :
    (∀ mode a, lessThan.holds mode a a = false) ∧
    (∀ mode a b, lessThan.holds mode a b = true → lessThan.holds mode b a = false) ∧
    (∀ a b c, Chained .strict a b c) ∧
    ∀ a b c, textCount a b c = 3 ∨ textCount a b c ≤ 1 → Chained .loose a b c := by
  refine ⟨fun mode a => ?_, fun _ _ _ => lessThan_asymm, chained_strict,
    fun _ _ _ => chained_of_textCount⟩
  exact Bool.eq_false_iff.mpr fun h => Bool.false_ne_true ((lessThan_asymm h).symm.trans h)

/-- The null value is below a text that is below a number, in the loose mode. -/
theorem chains_nullTextNumber :
    textCount .null (.text " 0x1 ") (.number (.ofNat 2)) ≤ 1 ∧
    lessThan.holds .loose .null (.text " 0x1 ") = true ∧
    lessThan.holds .loose (.text " 0x1 ") .null = false ∧
    lessThan.holds .loose (.text " 0x1 ") (.number (.ofNat 2)) = true ∧
    lessThan.holds .loose .null (.number (.ofNat 2)) = true := by
  have hcount : textCount .null (.text " 0x1 ") (.number (.ofNat 2)) ≤ 1 := by decide
  have hfirst : lessThan.holds .loose .null (.text " 0x1 ") = true := by decide +kernel
  have hsecond : lessThan.holds .loose (.text " 0x1 ") (.number (.ofNat 2)) = true := by
    decide +kernel
  obtain ⟨-, hasymm, -, hloose⟩ := chains
  exact ⟨hcount, hfirst, hasymm .loose .null _ hfirst, hsecond,
    (hloose _ _ _ (.inr hcount)).less_less hfirst hsecond⟩

/-- A chain over two texts and a number breaks. -/
example : lessThan.holds .loose (.text "10") (.text "9") = true ∧
    lessThan.holds .loose (.text "9") (.number (.ofNat 10)) = true ∧
    lessThan.holds .loose (.text "10") (.number (.ofNat 10)) = false := by decide +kernel

/-! ### Texts -/

/-- **How texts are ordered**. In either mode a text is less than another if, where they differ
first, its character comes first: by block, those above `U+FFFF` between those up to `U+D7FF` and
those from `U+E000` on, and by code point in a block; a proper beginning comes first. This is a
strict total order. It is that of code points, and of bytes, unless characters of the last two
blocks meet. -/
theorem text_order (mode : OrderingMode) :
    (∀ s t, lessThan.holds mode (.text s) (.text t) = true ↔
      s.toList.map place < t.toList.map place) ∧
    IsStrictTotalOrder String (fun s t => lessThan.holds mode (.text s) (.text t) = true) ∧
    ∀ s t, ¬ IsMixed (s.toList ++ t.toList) →
      (lessThan.holds mode (.text s) (.text t) = true ↔ s < t) ∧
      (lessThan.holds mode (.text s) (.text t) = true ↔
        s.toByteArray.data.toList < t.toByteArray.data.toList) := by
  have hplaces (s t : String) : lessThan.holds mode (.text s) (.text t) = true ↔
      s.toList.map place < t.toList.map place := by
    rw [holds, below?_texts, beq_iff_eq, Option.some.injEq, textPrecedes_iff_place]
  refine ⟨hplaces, ?_, fun s t hmixed => ?_⟩
  · have hinjective : Function.Injective fun s : String => s.toList.map place :=
      (List.map_injective_iff.mpr place_injective).comp fun _ _ => String.toList_inj.mp
    simp only [hplaces]
    exact { trichotomous := fun s t h h' =>
              hinjective (le_antisymm (not_lt.mp h') (not_lt.mp h))
            irrefl := fun s => lt_irrefl _
            trans := fun s t u => lt_trans }
  · rw [toByteArray_lt_iff, hplaces, map_place_lt_iff hmixed]
    exact ⟨Iff.rfl, Iff.rfl⟩

/-- Two texts with characters of two units and none of the block after them. -/
theorem text_order_faces :
    ¬ IsMixed ("a😀".toList ++ "a😁é".toList) ∧
    lessThan.holds .strict (.text "a😀") (.text "a😁é") = true ∧
    "a😀" < "a😁é" := by
  have hmixed : ¬ IsMixed ("a😀".toList ++ "a😁é".toList) := by
    rintro ⟨-, c, hc, hlow, hhigh⟩
    have hblock : ("a😀".toList ++ "a😁é".toList).all
        (fun c => !decide (0xe000 ≤ c.toNat ∧ c.toNat ≤ 0xffff)) = true := by decide +kernel
    have hnone := List.all_eq_true.mp hblock c hc
    rw [decide_eq_true ⟨hlow, hhigh⟩] at hnone
    cases hnone
  have hless : lessThan.holds .strict (.text "a😀") (.text "a😁é") = true := by decide +kernel
  obtain ⟨-, -, hpoints⟩ := text_order .strict
  exact ⟨hmixed, hless, (hpoints _ _ hmixed).1.mp hless⟩

/-- A character above `U+FFFF` comes before one from `U+E000` on. -/
example : lessThan.holds .strict (.text "😀") (.text "｡") = true := by
  decide +kernel

end Comparison

end Conditions
