import Conditions.Proofs.Comparison.Standing
import Conditions.Proofs.Evaluation.Walk
import Conditions.Proofs.Json.Numerals
import Conditions.Proofs.Number.Values

/-!
# Comparisons of whole numbers

A whole number of a record and one of a condition are compared after both have been rounded. Since
rounding keeps the order, no comparison turns the order of two whole numbers round, but two that are
close may become equal; up to `2 ^ 53` nothing is lost, and all comparisons are those of the whole
numbers themselves (`Evaluator.decides_whole`).

Numbers are compared by their keys, which are whole numbers too, so that a comparison of numbers is
the comparison of two integers (`Comparison.holds_numbers`).
-/

namespace Conditions

open Binary64 (RoundsWhole)

/-! ### Comparisons of integers -/

namespace Comparison

/-- Whether a comparison holds of two integers. -/
def ofInts (i j : Int) : Comparison → Bool
  | lessThan => decide (i < j)
  | greaterThan => decide (j < i)
  | equals => decide (i = j)
  | notEquals => decide (i ≠ j)
  | lessThanOrEqual => decide (i ≤ j)
  | greaterThanOrEqual => decide (j ≤ i)

variable {i j k l : Int}

/-- Comparisons ask for nothing but the order. -/
theorem ofInts_congr (h : i ≤ j ↔ k ≤ l) (h' : j ≤ i ↔ l ≤ k) (comparison : Comparison) :
    comparison.ofInts i j = comparison.ofInts k l := by
  cases comparison <;> simp only [ofInts, decide_eq_decide] <;> omega

/-- Numbers are compared by their keys, in either mode. -/
theorem holds_numbers {x y : Binary64} (hx : x.isNaN = false) (hy : y.isNaN = false)
    (mode : OrderingMode) (comparison : Comparison) :
    comparison.holds mode (.number x) (.number y) = comparison.ofInts x.key y.key := by
  have hequal : Operand.equal (.number x) (.number y) = decide (x.key = y.key) := by
    rw [Bool.eq_iff_iff, decide_eq_true_iff]
    exact Binary64.eq_iff_key hx hy
  cases comparison with
  | equals => exact hequal
  | notEquals =>
    rw [holds, hequal, ofInts, decide_not]
  | _ =>
    simp only [holds, Operand.below?_numbers, Operand.numberBelow?_of_numbers hx hy,
      Operand.numberBelow?_of_numbers hy hx, ofInts, Option.some_beq_some, beq_true, beq_false,
      ← decide_not, Int.not_lt]

end Comparison

/-! ### Whole numbers of records and conditions -/

/-- The number that a numeral denotes. -/
def Json.Numeral.denoted (n : Json.Numeral) : ℚ := if n.negative then -n.magnitude else n.magnitude

/-- A number of a document is a whole number. -/
inductive JsonNumber.IsWhole (i : Int) : JsonNumber → Prop where
  /-- One that is kept as a whole number. -/
  | kept : IsWhole i (.whole i)
  /-- What a numeral of 64 bits without a point and a power of ten is read as. A zero with a minus
  sign is one of them, although it is not kept as a whole number. -/
  | read {n : Json.Numeral} {number : JsonNumber} (point : n.fraction = none)
    (power : n.exponent = none) (denotes : n.denoted = i) (low : -0x8000000000000000 ≤ i)
    (high : i < 0x10000000000000000) (value : n.value = .ok number) : IsWhole i number

/-- The literal of a condition is a whole number. -/
inductive Literal.IsWhole (i : Int) : Literal → Prop where
  /-- One that is made of the whole number. -/
  | made : IsWhole i (.ofInt i)
  /-- One that is read in a document. -/
  | read {number : JsonNumber} {l : Literal} (whole : number.IsWhole i)
    (h : Literal.ofJson? (.number number) = some l) : IsWhole i l

/-- A numeral of 64 bits without a point and a power of ten is rounded to the nearest number. -/
theorem Json.Numeral.roundsToNearest_of_whole {n : Json.Numeral} {i : Int}
    (point : n.fraction = none) (power : n.exponent = none) (denotes : n.denoted = i)
    (low : -0x8000000000000000 ≤ i) (high : i < 0x10000000000000000) : n.RoundsToNearest := by
  obtain ⟨negative, whole, fraction, exponent⟩ := n
  obtain rfl : fraction = none := point
  obtain rfl : exponent = none := power
  have hdigits : (⟨negative, whole, none, none⟩ : Numeral).digits = decimalValue whole :=
    congrArg decimalValue (List.append_nil whole)
  have hscale : (⟨negative, whole, none, none⟩ : Numeral).scale = 0 := rfl
  rw [denoted, magnitude_eq, hdigits, hscale, zpow_zero, mul_one] at denotes
  intro hwhole
  -- only a zero with a minus sign is not kept as a whole number
  have hzero : decimalValue whole = 0 := by
    cases negative with
    | true =>
      obtain rfl : i = -(decimalValue whole : Int) := by exact_mod_cast denotes.symm
      by_contra hne
      have hfits : 0 < decimalValue whole ∧ decimalValue whole ≤ 0x8000000000000000 := by omega
      simp [toWhole?, hfits] at hwhole
    | false =>
      obtain rfl : i = decimalValue whole := by exact_mod_cast denotes.symm
      have hfits : decimalValue whole < 0x10000000000000000 := by omega
      simp [toWhole?, hfits] at hwhole
  exact IsShort.isRounded ⟨by rw [hdigits, hzero]; exact Nat.zero_le _, by rw [hscale]; decide,
    by rw [hscale]; decide⟩

theorem JsonNumber.IsWhole.rounds {i : Int} {number : JsonNumber} (h : number.IsWhole i) :
    RoundsWhole i number.toBinary64 := by
  cases h with
  | kept => exact Binary64.roundsWhole_ofInt i
  | @read n _ point power denotes low high hvalue =>
    have hnonneg : 0 ≤ n.magnitude := mul_nonneg (Nat.cast_nonneg _) (zpow_nonneg (by norm_num) _)
    have hrounds := Json.Numeral.roundsToNearest_of_whole point power denotes low high
    exact (Json.isRounded_value hrounds hvalue).roundsWhole hnonneg denotes

theorem Literal.IsWhole.exists_rounds {i : Int} {l : Literal} (h : l.IsWhole i) :
    ∃ x, l = .number x ∧ RoundsWhole i x := by
  cases h with
  | made => exact ⟨_, rfl, Binary64.roundsWhole_ofInt i⟩
  | read hwhole hread =>
    cases hread
    exact ⟨_, rfl, hwhole.rounds⟩

/-! ### Verdicts -/

namespace Evaluator

/-- A comparison of a field with a literal has a verdict, in whatever node it stands. -/
def Decides (e : Evaluator) (record : Record) (name : String) (l : Literal)
    (comparison : Comparison) (verdict : Bool) : Prop :=
  ∀ c : Condition, e.resolver c.op = .ok (.compare comparison) → c.property = some name →
    c.value = some l → e.evaluate record c = .ok verdict

variable {e : Evaluator} {record : Record} {name : String}

theorem decides_numbers {number : JsonNumber} {y : Binary64} (he : e.Admits [])
    (hfield : record.get? name = some (.number number)) (hx : number.toBinary64.isNaN = false)
    (hy : y.isNaN = false) (comparison : Comparison) :
    e.Decides record name (.number y) comparison
      (comparison.ofInts number.toBinary64.key y.key) := by
  intro c hop hproperty hvalue
  rw [evaluate_of_compare he hop, comparisonHolds, hproperty, hvalue, Option.bind_some, hfield,
    ← Comparison.holds_numbers hx hy e.ordering]
  rfl

/-- **Comparisons of whole numbers respect their order**, and up to `2 ^ 53` they are those of the
whole numbers. -/
theorem decides_whole {number : JsonNumber} {l : Literal} {m n : Int} (he : e.Admits [])
    (hfield : record.get? name = some (.number number)) (hm : number.IsWhole m)
    (hn : l.IsWhole n) :
    (m < n → e.Decides record name l .lessThanOrEqual true ∧
      e.Decides record name l .greaterThan false) ∧
    (n < m → e.Decides record name l .greaterThanOrEqual true ∧
      e.Decides record name l .lessThan false) ∧
    (m = n → e.Decides record name l .equals true ∧
      e.Decides record name l .lessThanOrEqual true ∧
      e.Decides record name l .greaterThanOrEqual true) ∧
    (|m| ≤ 2 ^ 53 → |n| ≤ 2 ^ 53 → ∀ comparison : Comparison,
      e.Decides record name l comparison (comparison.ofInts m n)) := by
  have hx := hm.rounds
  obtain ⟨y, rfl, hy⟩ := hn.exists_rounds
  have hdecides := decides_numbers he hfield hx.isNaN hy.isNaN
  have hle (h : m ≤ n) : number.toBinary64.key ≤ y.key := hx.key_le_key hy h
  have hge (h : n ≤ m) : y.key ≤ number.toBinary64.key := hy.key_le_key hx h
  refine ⟨fun h => ?_, fun h => ?_, fun h => ?_, fun hsmall hsmall' comparison => ?_⟩
  · exact ⟨decide_eq_true (hle h.le) ▸ hdecides .lessThanOrEqual,
      decide_eq_false (Int.not_lt.mpr (hle h.le)) ▸ hdecides .greaterThan⟩
  · exact ⟨decide_eq_true (hge h.le) ▸ hdecides .greaterThanOrEqual,
      decide_eq_false (Int.not_lt.mpr (hge h.le)) ▸ hdecides .lessThan⟩
  · exact ⟨decide_eq_true (le_antisymm (hle h.le) (hge h.ge)) ▸ hdecides .equals,
      decide_eq_true (hle h.le) ▸ hdecides .lessThanOrEqual,
      decide_eq_true (hge h.ge) ▸ hdecides .greaterThanOrEqual⟩
  · have hforth : number.toBinary64.key ≤ y.key ↔ m ≤ n := by
      rw [Binary64.key_le_key_iff_value, hx.value_eq hsmall, hy.value_eq hsmall', Int.cast_le]
    have hback : y.key ≤ number.toBinary64.key ↔ n ≤ m := by
      rw [Binary64.key_le_key_iff_value, hx.value_eq hsmall, hy.value_eq hsmall', Int.cast_le]
    exact Comparison.ofInts_congr hforth hback comparison ▸ hdecides comparison

/-- Both are rounded to one number, so what is above is no longer above, but it is not below. -/
theorem decides_whole_close : (2 : Int) ^ 53 < 2 ^ 53 + 1 ∧
    standard.Decides (Record.empty.insert "n" (.number (.whole (2 ^ 53 + 1)))) "n"
      (.ofInt (2 ^ 53)) .greaterThanOrEqual true ∧
    standard.Decides (Record.empty.insert "n" (.number (.whole (2 ^ 53 + 1)))) "n"
      (.ofInt (2 ^ 53)) .lessThan false := by
  have hlt : (2 : Int) ^ 53 < 2 ^ 53 + 1 := by decide
  have admits : standard.Admits [] := nofun
  obtain ⟨-, habove, -⟩ := decides_whole admits (Record.get?_insert_self .empty "n" _)
    (.kept : JsonNumber.IsWhole (2 ^ 53 + 1) (.whole (2 ^ 53 + 1)))
    (.made : Literal.IsWhole (2 ^ 53) (.ofInt (2 ^ 53)))
  exact ⟨hlt, habove hlt⟩

end Evaluator

end Conditions
