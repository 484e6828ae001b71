import Conditions.Proofs.Evaluation.Ordering
import Conditions.Proofs.Text.Units

/-!
# How two operands stand to each other

The four relations of order are read off one question, whether the first operand is below the
second, asked of the pair and of the pair turned round. Either both have no answer, or at most one
is a yes (`exists_verdicts`); so there are four ways for two operands to stand, and each shows in
the relations that hold (`stands_iff`).

`Comparison.coherent` says so of any operands in either mode, which pairs are apart, and that the
pairs with an order are level exactly if they are equal.
-/

namespace Conditions

/-- How an operand stands to another. -/
inductive Standing where
  /-- The two have no order. -/
  | apart
  /-- The first is below the second. -/
  | below
  /-- The first is above the second. -/
  | above
  /-- Neither is below the other. -/
  | level
  deriving DecidableEq

namespace Standing

/-- The relations that hold of two operands that stand so. -/
def relations : Standing → List Comparison
  | .apart => []
  | .below => [.lessThan, .lessThanOrEqual]
  | .above => [.greaterThan, .greaterThanOrEqual]
  | .level => [.lessThanOrEqual, .greaterThanOrEqual]

/-- Whether the first is below the second, and whether the second is below the first. -/
def verdicts : Standing → Option Bool × Option Bool
  | .apart => (none, none)
  | .below => (some true, some false)
  | .above => (some false, some true)
  | .level => (some false, some false)

/-- The two weak relations suffice to tell how operands stand. -/
theorem eq_of_relations {s s' : Standing}
    (hbelow : .lessThanOrEqual ∈ s.relations ↔ .lessThanOrEqual ∈ s'.relations)
    (habove : .greaterThanOrEqual ∈ s.relations ↔ .greaterThanOrEqual ∈ s'.relations) :
    s = s' := by
  cases s <;> cases s' <;> simp [relations] at hbelow habove ⊢

end Standing

/-- The comparison that holds of a pair turned round if this one holds of the pair. -/
def Comparison.converse : Comparison → Comparison
  | .lessThan => .greaterThan
  | .greaterThan => .lessThan
  | .equals => .equals
  | .notEquals => .notEquals
  | .lessThanOrEqual => .greaterThanOrEqual
  | .greaterThanOrEqual => .lessThanOrEqual

/-! ### Numbers -/

namespace Binary64

variable {x y : Binary64}

theorem eq_iff_key (hx : x.isNaN = false) (hy : y.isNaN = false) :
    x.eq y = true ↔ x.key = y.key := by
  simp [eq, hx, hy]

theorem eq_comm (x y : Binary64) : x.eq y = y.eq x := by
  rw [eq, eq, Bool.and_comm (!x.isNaN), BEq.comm]

end Binary64

namespace Operand

variable {mode : OrderingMode} {a b : Operand} {x y : Binary64} {s t : String}

theorem numberBelow?_eq_none_iff :
    numberBelow? x y = none ↔ x.isNaN = true ∨ y.isNaN = true := by
  rw [numberBelow?, ← Bool.or_eq_true]
  cases x.isNaN || y.isNaN <;> simp

theorem numberBelow?_of_numbers (hx : x.isNaN = false) (hy : y.isNaN = false) :
    numberBelow? x y = some (decide (x.key < y.key)) := by
  simp [numberBelow?, Binary64.lt, hx, hy]

theorem exists_verdicts_numbers (x y : Binary64) :
    ∃ standing : Standing, standing.verdicts = (numberBelow? x y, numberBelow? y x) := by
  by_cases hnan : x.isNaN = true ∨ y.isNaN = true
  · refine ⟨.apart, ?_⟩
    rw [numberBelow?_eq_none_iff.mpr hnan, numberBelow?_eq_none_iff.mpr hnan.symm]
    rfl
  · simp only [not_or, Bool.not_eq_true] at hnan
    obtain ⟨hx, hy⟩ := hnan
    rw [numberBelow?_of_numbers hx hy, numberBelow?_of_numbers hy hx]
    rcases lt_trichotomy x.key y.key with h | h | h
    · exact ⟨.below, by simp [Standing.verdicts, h, h.le]⟩
    · exact ⟨.level, by simp [Standing.verdicts, h]⟩
    · exact ⟨.above, by simp [Standing.verdicts, h, h.le]⟩

/-! ### Pairs with an order -/

/-- Pairs that have an order in either mode: two texts, or two numbers. -/
inductive Ordered : Operand → Operand → Prop
  /-- Any two texts. -/
  | texts (s t : String) : Ordered (.text s) (.text t)
  /-- Two words that stand for numbers. -/
  | numbers {x y : Binary64} : x.isNaN = false → y.isNaN = false →
    Ordered (.number x) (.number y)

/-- Both operands are texts. -/
def BothTexts (a b : Operand) : Prop := ∃ s t, a = .text s ∧ b = .text t

/-- A list, an object, or an operand that the loose order turns into "not a number". -/
def Unnumbered (a : Operand) : Prop :=
  a = .composite ∨ ∃ x, a.toNumber? = some x ∧ x.isNaN = true

theorem toNumber?_eq_none_iff : a.toNumber? = none ↔ a = .composite := by
  cases a <;> simp [toNumber?]

theorem unnumbered_iff : a.Unnumbered ↔ ∀ x, a.toNumber? = some x → x.isNaN = true := by
  unfold Unnumbered
  rw [← toNumber?_eq_none_iff]
  cases a.toNumber? <;> simp

theorem Ordered.symm (h : Ordered a b) : Ordered b a := by
  cases h with
  | texts s t => exact .texts t s
  | numbers hx hy => exact .numbers hy hx

theorem BothTexts.symm (h : BothTexts a b) : BothTexts b a := by
  obtain ⟨s, t, rfl, rfl⟩ := h
  exact ⟨t, s, rfl, rfl⟩

theorem below?_texts (mode : OrderingMode) (s t : String) :
    below? mode (.text s) (.text t) = some (textPrecedes s t) := rfl

theorem below?_numbers (mode : OrderingMode) (x y : Binary64) :
    below? mode (.number x) (.number y) = numberBelow? x y := by
  cases mode <;> rfl

theorem below?_loose (h : ¬ BothTexts a b) :
    a.below? .loose b = a.toNumber?.bind fun x => b.toNumber?.bind fun y => numberBelow? x y := by
  cases a with
  | text s =>
    cases b with
    | text t => exact absurd ⟨s, t, rfl, rfl⟩ h
    | _ => rfl
  | _ => rfl

/-- The strict mode gives an order to no other pairs. -/
theorem below?_strict_eq_none_iff : a.below? .strict b = none ↔ ¬ Ordered a b := by
  constructor
  · rintro h (⟨s, t⟩ | ⟨hx, hy⟩)
    · cases h
    · rcases numberBelow?_eq_none_iff.mp h with hnan | hnan
      · exact absurd (hx.symm.trans hnan) (by decide)
      · exact absurd (hy.symm.trans hnan) (by decide)
  · intro h
    rw [← Option.not_isSome_iff_eq_none, Option.isSome_iff_exists]
    rintro ⟨v, hv⟩
    have hkind := oneKind_of_below?_strict hv
    cases a with
    | text s =>
      cases b with
      | text t => exact h (.texts s t)
      | _ => exact hkind
    | number x =>
      cases b with
      | number y =>
        have hnan : ¬ (x.isNaN = true ∨ y.isNaN = true) := by
          rw [← numberBelow?_eq_none_iff, ← below?_numbers .strict, hv]
          nofun
        simp only [not_or, Bool.not_eq_true] at hnan
        exact h (.numbers hnan.1 hnan.2)
      | _ => exact hkind
    | _ => exact hkind

theorem below?_loose_eq_none_iff :
    a.below? .loose b = none ↔ ¬ BothTexts a b ∧ (a.Unnumbered ∨ b.Unnumbered) := by
  by_cases htexts : BothTexts a b
  · obtain ⟨s, t, rfl, rfl⟩ := htexts
    exact ⟨nofun, fun h => absurd ⟨s, t, rfl, rfl⟩ h.1⟩
  · rw [below?_loose htexts, unnumbered_iff, unnumbered_iff]
    simp only [htexts, not_false_eq_true, true_and]
    cases a.toNumber? with
    | none => simp
    | some x =>
      cases b.toNumber? with
      | none => simp
      | some y => simp [numberBelow?_eq_none_iff]

/-! ### Standings -/

/-- In any order, a pair and the pair turned round get the verdicts of some standing. -/
theorem exists_verdicts (mode : OrderingMode) (a b : Operand) :
    ∃ standing : Standing, standing.verdicts = (a.below? mode b, b.below? mode a) := by
  by_cases htexts : BothTexts a b
  · obtain ⟨s, t, rfl, rfl⟩ := htexts
    rw [below?_texts, below?_texts]
    rcases textPrecedes_trichotomy s t with h | rfl | h
    · exact ⟨.below, by rw [h, textPrecedes_asymm h]; rfl⟩
    · exact ⟨.level, by rw [textPrecedes_irrefl]; rfl⟩
    · exact ⟨.above, by rw [h, textPrecedes_asymm h]; rfl⟩
  · cases mode with
    | strict =>
      by_cases hordered : Ordered a b
      · cases hordered with
        | texts s t => exact absurd ⟨s, t, rfl, rfl⟩ htexts
        | numbers => exact exists_verdicts_numbers _ _
      · refine ⟨.apart, ?_⟩
        rw [below?_strict_eq_none_iff.mpr hordered,
          below?_strict_eq_none_iff.mpr fun h => hordered h.symm]
        rfl
    | loose =>
      rw [below?_loose htexts, below?_loose fun h => htexts h.symm]
      cases a.toNumber? with
      | none => exact ⟨.apart, by cases b.toNumber? <;> rfl⟩
      | some x =>
        cases b.toNumber? with
        | none => exact ⟨.apart, rfl⟩
        | some y => exact exists_verdicts_numbers x y

/-- Of the four relations, exactly those of a standing hold of two operands. -/
def Stands (mode : OrderingMode) (a b : Operand) (standing : Standing) : Prop :=
  ∀ comparison : Comparison, comparison.IsRelation →
    (comparison.holds mode a b = true ↔ comparison ∈ standing.relations)

theorem Stands.unique {standing standing' : Standing} (h : Stands mode a b standing)
    (h' : Stands mode a b standing') : standing = standing' :=
  Standing.eq_of_relations ((h .lessThanOrEqual trivial).symm.trans (h' .lessThanOrEqual trivial))
    ((h .greaterThanOrEqual trivial).symm.trans (h' .greaterThanOrEqual trivial))

theorem stands_of_verdicts {standing : Standing}
    (h : standing.verdicts = (a.below? mode b, b.below? mode a)) : Stands mode a b standing := by
  obtain ⟨hforth, hback⟩ := Prod.mk.inj h
  intro comparison hrelation
  cases comparison with
  | equals => exact hrelation.elim
  | notEquals => exact hrelation.elim
  | _ =>
    simp only [Comparison.holds, ← hforth, ← hback]
    cases standing <;> decide

/-- How operands stand shows in the relations that hold. -/
theorem stands_iff {standing : Standing} :
    Stands mode a b standing ↔ standing.verdicts = (a.below? mode b, b.below? mode a) := by
  refine ⟨fun h => ?_, stands_of_verdicts⟩
  obtain ⟨standing', h'⟩ := exists_verdicts mode a b
  rwa [h.unique (stands_of_verdicts h')]

theorem stands_apart_iff : Stands mode a b .apart ↔ a.below? mode b = none := by
  obtain ⟨standing, h⟩ := exists_verdicts mode a b
  have hforth : standing.verdicts.1 = a.below? mode b := congrArg Prod.fst h
  rw [stands_iff, ← h, ← hforth]
  cases standing <;> decide

/-- A pair that has an order is level if it is equal, and only then. -/
theorem Ordered.stands_level_iff (h : Ordered a b) (mode : OrderingMode) :
    Stands mode a b .level ↔ a.equal b = true := by
  rw [stands_iff]
  cases h with
  | texts s t =>
    show Standing.level.verdicts = _ ↔ (s == t) = true
    rw [below?_texts, below?_texts, beq_iff_eq]
    constructor
    · intro heq
      simp only [Standing.verdicts, Prod.mk.injEq, Option.some.injEq] at heq
      rcases textPrecedes_trichotomy s t with h | h | h
      · exact absurd (heq.1.trans h) (by decide)
      · exact h
      · exact absurd (heq.2.trans h) (by decide)
    · rintro rfl
      rw [textPrecedes_irrefl]
      rfl
  | @numbers x y hx hy =>
    show Standing.level.verdicts = _ ↔ x.eq y = true
    rw [below?_numbers, below?_numbers, numberBelow?_of_numbers hx hy,
      numberBelow?_of_numbers hy hx, Binary64.eq_iff_key hx hy]
    simp only [Standing.verdicts, Prod.mk.injEq, Option.some.injEq, eq_comm (a := false),
      decide_eq_false_iff_not]
    omega

/-! ### Coherence -/

theorem equal_comm (a b : Operand) : a.equal b = b.equal a := by
  cases a with
  | bool p =>
    cases b with
    | bool q => exact BEq.comm
    | _ => rfl
  | number x =>
    cases b with
    | number y => exact Binary64.eq_comm x y
    | _ => rfl
  | text s =>
    cases b with
    | text t => exact BEq.comm
    | _ => rfl
  | _ => cases b <;> rfl

end Operand

open Operand

namespace Comparison

/-- Turning a pair round turns the comparisons round. -/
theorem holds_converse (comparison : Comparison) (mode : OrderingMode) (a b : Operand) :
    comparison.converse.holds mode b a = comparison.holds mode a b := by
  cases comparison with
  | equals => exact equal_comm b a
  | notEquals => exact congrArg (!·) (equal_comm b a)
  | _ => rfl

/-- **The six comparisons are coherent**. Any two operands stand to each other in one of four ways.
They are apart in the strict mode unless they are two texts or two numbers, and in the loose mode
if one of them is turned into no number and they are not two texts. The comparisons of the pair
turned round are the converse ones. Texts and numbers are level exactly if they are equal, and what
is equal is no matter of the mode. -/
theorem coherent (mode : OrderingMode) (a b : Operand) :
    (∃! standing, Stands mode a b standing) ∧
    (Stands .strict a b .apart ↔ ¬ Ordered a b) ∧
    (Stands .loose a b .apart ↔ ¬ BothTexts a b ∧ (a.Unnumbered ∨ b.Unnumbered)) ∧
    (∀ comparison : Comparison,
      comparison.converse.holds mode b a = comparison.holds mode a b) ∧
    (Ordered a b → (Stands mode a b .level ↔ equals.holds mode a b = true)) ∧
    (notEquals.holds mode a b = !equals.holds mode a b) ∧
    ∀ mode', equals.holds mode' a b = equals.holds mode a b ∧
      notEquals.holds mode' a b = notEquals.holds mode a b := by
  obtain ⟨standing, hstanding⟩ := exists_verdicts mode a b
  have hstands : Stands mode a b standing := stands_of_verdicts hstanding
  exact ⟨⟨standing, hstands, fun _ h => h.unique hstands⟩,
    stands_apart_iff.trans below?_strict_eq_none_iff,
    stands_apart_iff.trans below?_loose_eq_none_iff,
    fun comparison => comparison.holds_converse mode a b,
    fun hordered => hordered.stands_level_iff mode, rfl, fun _ => ⟨rfl, rfl⟩⟩

/-- The two zeros are level. -/
theorem coherent_zeros : Ordered (.number (.ofRank true 0)) (.number .zero) ∧
    Stands .strict (.number (.ofRank true 0)) (.number .zero) .level := by
  have hordered : Ordered (.number (.ofRank true 0)) (.number .zero) :=
    .numbers (by decide) (by decide)
  obtain ⟨-, -, -, -, hlevel, -⟩ := coherent .strict (.number (.ofRank true 0)) (.number .zero)
  exact ⟨hordered, (hlevel hordered).mpr (by decide)⟩

/-- A list is apart from everything, a text that is no numeral from every number. -/
example : Stands .loose .composite .null .apart ∧
    Stands .loose (.text "x") (.number .zero) .apart :=
  ⟨stands_apart_iff.mpr rfl, stands_apart_iff.mpr (by decide)⟩

end Comparison

end Conditions
