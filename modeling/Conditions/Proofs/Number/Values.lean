import Conditions.Proofs.Number.Nearest

/-!
# Values of numbers

The value of a number is its magnitude with its sign, and numbers are ordered by their values
(`key_le_key_iff_value`). Rounding to the nearest number keeps the order (`IsNearest.mono`): what is
greater is rounded to a number that is not less. So whole numbers keep their order when they are
rounded (`RoundsWhole.key_le_key`), and up to `2 ^ 53` they keep their values as well
(`RoundsWhole.value_eq`), since each of these is the magnitude of a rank.
-/

namespace Conditions.Binary64

variable {x y : Binary64}

/-- A finite number is some number. -/
theorem isNaN_of_isFinite (h : x.isFinite = true) : x.isNaN = false :=
  decide_eq_false (Nat.lt_asymm (of_decide_eq_true h))

/-! ### Values -/

/-- The value of a number. Both zeros have the same. -/
def value (x : Binary64) : ℚ := if x.negative then -magnitude x.rank else magnitude x.rank

theorem magnitude_zero : magnitude 0 = 0 := by
  rw [magnitude, show units 0 = 0 from rfl, Nat.cast_zero, zero_div]

theorem magnitude_nonneg (rank : Nat) : 0 ≤ magnitude rank :=
  magnitude_zero ▸ magnitude_strictMono.monotone (Nat.zero_le rank)

theorem magnitude_eq_zero_iff {rank : Nat} : magnitude rank = 0 ↔ rank = 0 := by
  rw [← magnitude_zero, magnitude_strictMono.injective.eq_iff]

/-- A magnitude is not below an opposite one unless both are zero. -/
theorem magnitude_le_neg_iff {r s : Nat} : magnitude r ≤ -magnitude s ↔ r = 0 ∧ s = 0 := by
  have hr := magnitude_nonneg r
  have hs := magnitude_nonneg s
  rw [← magnitude_eq_zero_iff, ← magnitude_eq_zero_iff]
  constructor
  · exact fun h => ⟨by linarith, by linarith⟩
  · rintro ⟨hr, hs⟩
    rw [hr, hs, neg_zero]

/-- **The order of numbers is that of their values.** -/
theorem key_le_key_iff_value : x.key ≤ y.key ↔ x.value ≤ y.value := by
  have hmono {r s : Nat} : magnitude r ≤ magnitude s ↔ r ≤ s := magnitude_strictMono.le_iff_le
  unfold key value
  cases x.negative <;> cases y.negative
  · simp only [Bool.false_eq_true, if_false, hmono, Int.ofNat_le]
  · simp only [Bool.false_eq_true, if_false, if_true, magnitude_le_neg_iff]
    omega
  · have hx := magnitude_nonneg x.rank
    have hy := magnitude_nonneg y.rank
    simp only [Bool.false_eq_true, if_false, if_true]
    exact iff_of_true (by omega) (by linarith)
  · simp only [if_true, neg_le_neg_iff, hmono, Int.ofNat_le]

theorem key_eq_key_iff_value : x.key = y.key ↔ x.value = y.value := by
  rw [le_antisymm_iff, key_le_key_iff_value, key_le_key_iff_value, ← le_antisymm_iff]

/-! ### Rounding keeps the order -/

/-- What is as near to the greater of two numbers is in the upper half of the step between them. -/
theorem add_le_two_mul {q a b : ℚ} (hab : a < b) (h : |q - b| ≤ |q - a|) : a + b ≤ 2 * q := by
  by_contra hlow
  have hnear : |q - a| < b - q := abs_lt.mpr ⟨by linarith, by linarith⟩
  have habs : b - q ≤ |q - b| := by
    rw [abs_sub_comm]
    exact le_abs_self _
  linarith

theorem two_mul_le_add {q a b : ℚ} (hab : a < b) (h : |q - a| ≤ |q - b|) : 2 * q ≤ a + b := by
  by_contra hhigh
  have hnear : |q - b| < q - a := abs_lt.mpr ⟨by linarith, by linarith⟩
  have habs : q - a ≤ |q - a| := le_abs_self _
  linarith

/-- **What is greater is rounded to no lower rank.** -/
theorem IsNearest.mono {q q' : ℚ} {r r' : Nat} (h : IsNearest q r) (h' : IsNearest q' r')
    (hle : q ≤ q') : r ≤ r' := by
  by_contra hnot
  have hlt := magnitude_strictMono (Nat.lt_of_not_le hnot)
  have hlow := add_le_two_mul hlt (h.nearest r' h'.le)
  have hhigh := two_mul_le_add hlt (h'.nearest r h.le)
  -- both would be the midpoint between the two ranks
  have heq : q = q' := by linarith
  exact hnot (h.unique (heq ▸ h')).le

/-! ### Whole numbers -/

/-- A number is a whole number rounded to the nearest. Zero may have either sign. -/
inductive RoundsWhole : Int → Binary64 → Prop where
  /-- A whole number that is not negative. -/
  | nonneg {n : Nat} {x : Binary64} (h : IsRounded false n x) : RoundsWhole n x
  /-- A whole number that is not positive. -/
  | nonpos {n : Nat} {x : Binary64} (h : IsRounded true n x) : RoundsWhole (-n) x

variable {i j : Int}

theorem RoundsWhole.isNaN (h : RoundsWhole i x) : x.isNaN = false := by
  cases h with
  | nonneg h | nonpos h => exact h.isNaN

/-- What is rounded with a sign is a whole number, if its magnitude with the sign is one. -/
theorem IsRounded.roundsWhole {negative : Bool} {q : ℚ} (h : IsRounded negative q x) (hq : 0 ≤ q)
    (hi : (if negative then -q else q) = i) : RoundsWhole i x := by
  cases negative with
  | false =>
    obtain rfl : q = i := hi
    obtain ⟨n, rfl⟩ := Int.eq_ofNat_of_zero_le (Int.cast_nonneg_iff.mp hq)
    exact .nonneg (by exact_mod_cast h)
  | true =>
    obtain rfl : q = (-i : Int) := by rw [Int.cast_neg, ← hi, if_pos rfl, neg_neg]
    obtain ⟨n, hn⟩ := Int.eq_ofNat_of_zero_le (Int.cast_nonneg_iff.mp hq)
    obtain rfl : i = -n := by omega
    exact .nonpos (by rwa [hn] at h)

theorem roundsWhole_ofInt (i : Int) : RoundsWhole i (ofInt i) := by
  have hrounded : IsRounded (decide (i < 0)) i.natAbs (ofInt i) := by
    have h := isRounded_ofRatio (decide (i < 0)) i.natAbs Nat.one_pos
    rwa [Nat.cast_one, div_one] at h
  refine hrounded.roundsWhole (Nat.cast_nonneg _) ?_
  rw [Nat.cast_natAbs]
  rcases Int.lt_or_le i 0 with hi | hi
  · rw [decide_eq_true hi, if_pos rfl, abs_of_neg hi, Int.cast_neg, neg_neg]
  · rw [decide_eq_false (Int.not_lt.mpr hi), if_neg Bool.false_ne_true, abs_of_nonneg hi]

theorem rank_eq_zero_of_isNearest {n rank : Nat} (hn : n = 0) (h : IsNearest n rank) :
    rank = 0 := by
  rw [hn, Nat.cast_zero, ← magnitude_zero] at h
  exact h.unique (isNearest_magnitude (Nat.zero_le _))

/-- **Whole numbers keep their order when they are rounded.** -/
theorem RoundsWhole.key_le_key (hx : RoundsWhole i x) (hy : RoundsWhole j y) (h : i ≤ j) :
    x.key ≤ y.key := by
  cases hx with
  | nonneg hx =>
    cases hy with
    | nonneg hy =>
      have hrank := hx.nearest.mono hy.nearest (by exact_mod_cast h)
      simp only [key, hx.sign, hy.sign, Bool.false_eq_true, if_false]
      omega
    | nonpos hy =>
      -- both are zero
      have hxrank := rank_eq_zero_of_isNearest (by omega) hx.nearest
      have hyrank := rank_eq_zero_of_isNearest (by omega) hy.nearest
      simp only [key, hx.sign, hy.sign, hxrank, hyrank, Bool.false_eq_true, if_false, if_true]
      omega
  | nonpos hx =>
    cases hy with
    | nonneg hy =>
      simp only [key, hx.sign, hy.sign, Bool.false_eq_true, if_false, if_true]
      omega
    | nonpos hy =>
      have hrank := hy.nearest.mono hx.nearest (by exact_mod_cast Int.neg_le_neg_iff.mp h)
      simp only [key, hx.sign, hy.sign, if_true]
      omega

/-- A whole number in steps of at most one, at least `2 ^ 52` of them and at most `2 ^ 53`, is the
magnitude of a rank. -/
theorem exists_magnitude_of_steps {n k : Nat} (hk : k ≤ 52) (hlow : 2 ^ 52 ≤ n * 2 ^ k)
    (hhigh : n * 2 ^ k ≤ 2 ^ 53) : ∃ rank ≤ infinityRank, magnitude rank = n := by
  have hunits : units ((1074 - k) * ranksPerShift + n * 2 ^ k) = n * unitsPerOne := by
    have hone : unitsPerOne = 2 ^ k * 2 ^ (1074 - k) := by
      obtain ⟨e, he⟩ : ∃ e, 1074 = e := ⟨_, rfl⟩
      have hsum : k + (e - k) = e := by omega
      rw [unitsPerOne_eq he, he, ← Nat.pow_add, hsum]
    rw [units_eq hhigh (.inr hlow), Nat.mul_assoc, hone]
  refine ⟨(1074 - k) * ranksPerShift + n * 2 ^ k, ?_, ?_⟩
  · unfold ranksPerShift infinityRank
    omega
  · rw [magnitude, hunits, Nat.cast_mul, mul_div_cancel_right₀ _ cast_unitsPerOne_pos.ne']

/-- Every whole number up to `2 ^ 53` is the magnitude of a rank. -/
theorem exists_magnitude_eq {n : Nat} (h : n ≤ 2 ^ 53) :
    ∃ rank ≤ infinityRank, magnitude rank = n := by
  rcases Nat.eq_zero_or_pos n with rfl | hpos
  · exact ⟨0, Nat.zero_le _, by rw [magnitude_zero, Nat.cast_zero]⟩
  · have hlow : 2 ^ n.log2 ≤ n := Nat.log2_self_le hpos.ne'
    have hhigh : n < 2 ^ (n.log2 + 1) := Nat.lt_log2_self
    rcases Nat.lt_or_eq_of_le h with hlt | rfl
    · have hlog : n.log2 ≤ 52 := Nat.lt_succ_iff.mp ((Nat.log2_lt hpos.ne').mpr hlt)
      have hsum : n.log2 + (52 - n.log2) = 52 := by omega
      refine exists_magnitude_of_steps (Nat.sub_le 52 n.log2) ?_ ?_
      · calc 2 ^ 52 = 2 ^ n.log2 * 2 ^ (52 - n.log2) := by rw [← Nat.pow_add, hsum]
          _ ≤ n * 2 ^ (52 - n.log2) := Nat.mul_le_mul_right _ hlow
      · calc n * 2 ^ (52 - n.log2) ≤ 2 ^ (n.log2 + 1) * 2 ^ (52 - n.log2) :=
            Nat.mul_le_mul_right _ hhigh.le
          _ = 2 ^ 53 := by rw [← Nat.pow_add, Nat.add_right_comm, hsum]
    · exact exists_magnitude_of_steps (Nat.zero_le 52) (by decide) (by decide)

/-- What a whole number up to `2 ^ 53` is rounded to has the whole number as its magnitude. -/
theorem IsNearest.magnitude_eq {n rank : Nat} (h : IsNearest n rank) (hn : n ≤ 2 ^ 53) :
    magnitude rank = n := by
  obtain ⟨exact, hle, hexact⟩ := exists_magnitude_eq hn
  rw [← hexact] at h
  rw [h.unique (isNearest_magnitude hle), hexact]

/-- **Whole numbers up to `2 ^ 53` keep their values.** -/
theorem RoundsWhole.value_eq (h : RoundsWhole i x) (hi : |i| ≤ 2 ^ 53) : x.value = i := by
  cases h with
  | nonneg h =>
    rw [Nat.abs_cast] at hi
    rw [value, h.sign, if_neg Bool.false_ne_true, h.nearest.magnitude_eq (by exact_mod_cast hi),
      Int.cast_natCast]
  | nonpos h =>
    rw [abs_neg, Nat.abs_cast] at hi
    rw [value, h.sign, if_pos rfl, h.nearest.magnitude_eq (by exact_mod_cast hi), Int.cast_neg,
      Int.cast_natCast]

/-- The next one does not keep its value: it is rounded to the even neighbour. -/
example : ofInt (2 ^ 53 + 1) = ofInt (2 ^ 53) := by decide +kernel

end Conditions.Binary64
