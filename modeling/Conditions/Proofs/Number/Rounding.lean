import Conditions.Number.Rounding
import Mathlib.Tactic.Linarith
import Mathlib.Tactic.Ring

/-!
# Rounding a ratio

`rankOfRatio` depends on the ratio alone (`rankOfRatio_congr`), and a ratio within half a step of
the magnitude of a rank is rounded to that rank (`rankOfRatio_eq`).

A decimal is rounded as the ratio that it is (`ofDecimal_eq`): exponents that are answered without
computing the power of ten are answered rightly. So zeros may be moved from the digits to the power
of ten and back (`ofDecimal_mul_pow`).
-/

namespace Conditions

/-! ### To the nearest whole number -/

theorem nearestEven_mul_left {c : Nat} (hc : 0 < c) (n d : Nat) :
    nearestEven (c * n) (c * d) = nearestEven n d := by
  have hmod : 2 * (c * n % (c * d)) = c * (2 * (n % d)) := by
    rw [Nat.mul_mod_mul_left, Nat.mul_left_comm]
  have hbelow : c * (2 * (n % d)) < c * d ↔ 2 * (n % d) < d := Nat.mul_lt_mul_left hc
  have habove : c * d < c * (2 * (n % d)) ↔ d < 2 * (n % d) := Nat.mul_lt_mul_left hc
  simp only [nearestEven, hmod, hbelow, habove, Nat.mul_div_mul_left n d hc]

/-- What is less than a half away is the nearest. -/
theorem nearestEven_eq {n d m : Nat} (below : 2 * (m * d) < 2 * n + d)
    (above : 2 * n < 2 * (m * d) + d) : nearestEven n d = m := by
  have hd : 0 < d := by
    rcases Nat.eq_zero_or_pos d with rfl | hd
    · omega
    · exact hd
  have hn : d * (n / d) + n % d = n := Nat.div_add_mod n d
  have hr : n % d < d := Nat.mod_lt n hd
  rw [Nat.mul_comm m d] at below above
  -- which whole numbers `m` can be, from where the multiples of `d` are
  have lt_of {a b : Nat} (h : d * a < d * b) : a < b := Nat.lt_of_mul_lt_mul_left h
  unfold nearestEven
  split
  · have h₁ : m < n / d + 1 := lt_of (by rw [Nat.mul_add]; omega)
    have h₂ : n / d < m + 1 := lt_of (by rw [Nat.mul_add]; omega)
    omega
  · split
    · have h₁ : m < n / d + 2 := lt_of (by rw [Nat.mul_add]; omega)
      have h₂ : n / d < m := lt_of (by omega)
      omega
    · have h₁ : m < n / d + 1 := lt_of (by rw [Nat.mul_add]; omega)
      have h₂ : n / d < m := lt_of (by omega)
      omega

namespace Binary64

/-! ### Ranks -/

theorem shift_mul_add_significand (rank : Nat) :
    shift rank * ranksPerShift + significand rank = rank := by
  unfold shift significand ranksPerShift
  split <;> omega

theorem significand_lt (rank : Nat) : significand rank < 2 * ranksPerShift := by
  unfold significand ranksPerShift
  split <;> omega

theorem ranksPerShift_le_significand {rank : Nat} (h : shift rank ≠ 0) :
    ranksPerShift ≤ significand rank := by
  unfold shift ranksPerShift at h
  unfold significand ranksPerShift
  split <;> omega

theorem rankOfRatio_le (num den : Nat) : rankOfRatio num den ≤ infinityRank := Nat.min_le_left _ _

theorem rank_ofRatio (negative : Bool) (num den : Nat) :
    (ofRatio negative num den).rank = rankOfRatio num den :=
  rank_ofRank (Nat.lt_of_le_of_lt (rankOfRatio_le num den) (by decide))

/-- A number is its sign and its rank. -/
theorem ofRank_negative_rank (x : Binary64) : ofRank x.negative x.rank = x := by
  obtain ⟨bits⟩ := x
  have hbits : bits.toNat < 2 ^ 64 := bits.toNat_lt
  refine congrArg mk (UInt64.toNat_inj.mp ?_)
  have hrank : (⟨bits⟩ : Binary64).rank = bits.toNat % signBit := rfl
  rw [UInt64.toNat_ofNat', hrank]
  by_cases h : signBit ≤ bits.toNat
  · have hnegative : (⟨bits⟩ : Binary64).negative = true := decide_eq_true h
    rw [hnegative, if_pos rfl]
    unfold signBit at h ⊢
    omega
  · have hnegative : (⟨bits⟩ : Binary64).negative = false := decide_eq_false h
    rw [hnegative, if_neg Bool.false_ne_true]
    unfold signBit at h ⊢
    omega

/-! ### Ratios -/

theorem unitsPerOne_pos : 0 < unitsPerOne := by decide +kernel

/-- One in units, with a name for the power of two, so that it is not computed. -/
theorem unitsPerOne_eq {e : Nat} (he : 1074 = e) : unitsPerOne = 2 ^ e := by
  unfold unitsPerOne
  rw [he]
  rfl

theorem two_pow_add_units (k : Nat) : 2 ^ (k + 1074) = 2 ^ k * unitsPerOne := by
  obtain ⟨e, he⟩ : ∃ e, 1074 = e := ⟨_, rfl⟩
  rw [unitsPerOne_eq he, he, Nat.pow_add]

theorem rankOfRatio_mul_left {c : Nat} (hc : 0 < c) (num den : Nat) :
    rankOfRatio (c * num) (c * den) = rankOfRatio num den := by
  have hdiv : c * (num * unitsPerOne) / (c * den) = num * unitsPerOne / den :=
    Nat.mul_div_mul_left _ _ hc
  simp only [rankOfRatio, Nat.mul_assoc, hdiv, nearestEven_mul_left hc]

/-- The rank nearest to a ratio is that of any equal ratio. -/
theorem rankOfRatio_congr {num den num' den' : Nat} (hden : 0 < den) (hden' : 0 < den')
    (h : num * den' = num' * den) : rankOfRatio num den = rankOfRatio num' den' := by
  rw [← rankOfRatio_mul_left hden' num den, ← rankOfRatio_mul_left hden num' den',
    Nat.mul_comm den' num, h, Nat.mul_comm num' den, Nat.mul_comm den' den]

/-- The number of steps between a ratio and its magnitude in units. -/
theorem log2_sub_eq_shift {rank n d : Nat} (hd : 0 < d)
    (above : 2 * n < (2 * significand rank + 1) * (Nat.pow 2 (shift rank) * d))
    (binade : shift rank = 0 ∨ ranksPerShift * (Nat.pow 2 (shift rank) * d) ≤ n) :
    (n / d).log2 - 52 = shift rank := by
  have hsig : 2 * significand rank + 1 ≤ 2 * 2 ^ 53 := by
    have := significand_lt rank
    unfold ranksPerShift at this
    omega
  have hlt : n / d < 2 ^ (53 + shift rank) := by
    rw [Nat.div_lt_iff_lt_mul hd]
    have hle := Nat.mul_le_mul_right (Nat.pow 2 (shift rank) * d) hsig
    have hpow : 2 ^ (53 + shift rank) * d = 2 ^ 53 * (Nat.pow 2 (shift rank) * d) := by
      rw [Nat.pow_add, Nat.mul_assoc]
      rfl
    rw [Nat.mul_assoc] at hle
    omega
  have hupper : (n / d).log2 < 53 + shift rank := by
    rcases Nat.eq_zero_or_pos (n / d) with h | h
    · rw [h, Nat.log2_zero]
      omega
    · exact (Nat.log2_lt (by omega)).mpr hlt
  rcases binade with hzero | hle
  · omega
  · have hge : 2 ^ (52 + shift rank) ≤ n / d := by
      rw [Nat.le_div_iff_mul_le hd, Nat.pow_add, Nat.mul_assoc]
      exact hle
    have hpos : n / d ≠ 0 := by
      have := Nat.two_pow_pos (52 + shift rank)
      omega
    have hlower : 52 + shift rank ≤ (n / d).log2 := (Nat.le_log2 hpos).mpr hge
    omega

/-- **A ratio near a magnitude is rounded to its rank**: less than half a step away from it, and not
below the smallest magnitude with steps of this size. -/
theorem rankOfRatio_eq {rank num den : Nat} (hden : 0 < den) (hrank : rank < infinityRank)
    (below : 2 * (significand rank * (Nat.pow 2 (shift rank) * den)) <
      2 * (num * unitsPerOne) + Nat.pow 2 (shift rank) * den)
    (above : 2 * (num * unitsPerOne) <
      2 * (significand rank * (Nat.pow 2 (shift rank) * den)) + Nat.pow 2 (shift rank) * den)
    (binade : shift rank = 0 ∨
      ranksPerShift * (Nat.pow 2 (shift rank) * den) ≤ num * unitsPerOne) :
    rankOfRatio num den = rank := by
  have hshift : (num * unitsPerOne / den).log2 - 52 = shift rank := by
    refine log2_sub_eq_shift hden ?_ binade
    rw [Nat.add_mul, Nat.mul_assoc, Nat.one_mul]
    exact above
  have hnearest : nearestEven (num * unitsPerOne) (den * Nat.pow 2 (shift rank)) =
      significand rank := by
    rw [Nat.mul_comm den]
    exact nearestEven_eq below above
  rw [rankOfRatio, hshift, hnearest, shift_mul_add_significand]
  exact Nat.min_eq_right (Nat.le_of_lt hrank)

/-! ### Decimals -/

/-- A ratio of less than half a unit is zero. -/
theorem rankOfRatio_eq_zero {num den : Nat} (hden : 0 < den)
    (h : 2 * (num * unitsPerOne) < den) : rankOfRatio num den = 0 := by
  have hpow : Nat.pow 2 (shift 0) = 1 := rfl
  have hsig : significand 0 = 0 := rfl
  refine rankOfRatio_eq hden (by decide) ?_ ?_ (.inl rfl)
  · rw [hsig, hpow]
    omega
  · rw [hsig, hpow]
    omega

/-- A whole number of more than 1025 binary digits is infinite. -/
theorem rankOfRatio_eq_infinityRank {num bits : Nat} (hbits : 1025 ≤ bits) (h : 2 ^ bits ≤ num) :
    rankOfRatio num 1 = infinityRank := by
  have hscaled : 2 ^ (bits + 1074) ≤ num * unitsPerOne := by
    rw [two_pow_add_units]
    exact Nat.mul_le_mul_right _ h
  have hpos : num * unitsPerOne ≠ 0 := by
    have := Nat.two_pow_pos (bits + 1074)
    omega
  have hlog : bits + 1074 ≤ (num * unitsPerOne / 1).log2 := by
    rw [Nat.div_one]
    exact (Nat.le_log2 hpos).mpr hscaled
  have hshift : 2047 * ranksPerShift ≤ ((num * unitsPerOne / 1).log2 - 52) * ranksPerShift :=
    Nat.mul_le_mul_right ranksPerShift (by omega)
  exact Nat.min_eq_left (Nat.le_trans hshift (Nat.le_add_right _ _))

theorem nearestEven_le (n d : Nat) : nearestEven n d ≤ n / d + 1 := by
  unfold nearestEven
  split
  · exact Nat.le_succ _
  · split
    · exact Nat.le_refl _
    · omega

/-- A whole number of less than 1024 binary digits is finite. -/
theorem rankOfRatio_lt_infinityRank {num bits : Nat} (hbits : bits ≤ 1023) (h : num < 2 ^ bits) :
    rankOfRatio num 1 < infinityRank := by
  have hscaled : num * unitsPerOne < 2 ^ (bits + 1074) := by
    rw [two_pow_add_units]
    exact Nat.mul_lt_mul_of_pos_right h unitsPerOne_pos
  obtain ⟨k, hk⟩ : ∃ k, k = (num * unitsPerOne).log2 - 52 := ⟨_, rfl⟩
  have hkle : k ≤ 2044 := by
    rcases Nat.eq_zero_or_pos (num * unitsPerOne) with hzero | hpos
    · rw [hk, hzero]
      decide
    · have := (Nat.log2_lt (Nat.ne_of_gt hpos)).mpr hscaled
      omega
  have hquotient : num * unitsPerOne / 2 ^ k < 2 ^ 53 := by
    refine Nat.div_lt_of_lt_mul ?_
    rw [← Nat.pow_add]
    refine Nat.lt_of_lt_of_le Nat.lt_log2_self (Nat.pow_le_pow_right (by decide) ?_)
    omega
  have hnearest := nearestEven_le (num * unitsPerOne) (2 ^ k)
  have hrank : k * ranksPerShift + nearestEven (num * unitsPerOne) (2 ^ k) < infinityRank := by
    simp only [ranksPerShift, infinityRank] at *
    omega
  have hone : 1 * Nat.pow 2 k = 2 ^ k := Nat.one_mul _
  rw [rankOfRatio, Nat.div_one, ← hk, hone]
  exact Nat.lt_of_le_of_lt (Nat.min_le_right _ _) hrank

/-- A decimal with a power of ten above 310 has more than 1025 binary digits. -/
theorem pow_le_of_large {digits exponent : Nat} (hdigits : 1 ≤ digits) (h : 311 ≤ exponent) :
    2 ^ (exponent + 714) ≤ digits * 10 ^ exponent := by
  obtain ⟨k, rfl⟩ := Nat.exists_eq_add_of_le h
  have hconst : 2 ^ 1025 ≤ 10 ^ 311 := by decide +kernel
  calc 2 ^ (311 + k + 714) = 2 ^ k * 2 ^ 1025 := by rw [← Nat.pow_add]; congr 1; omega
    _ ≤ 10 ^ k * 10 ^ 311 := Nat.mul_le_mul (Nat.pow_le_pow_left (by decide) k) hconst
    _ = 1 * 10 ^ (311 + k) := by rw [← Nat.pow_add, Nat.one_mul, Nat.add_comm]
    _ ≤ digits * 10 ^ (311 + k) := Nat.mul_le_mul_right _ hdigits

/-- A decimal with a power of ten far below its digits is less than half a unit. -/
theorem lt_pow_of_small {digits exponent : Nat} (h : digits.log2 + 401 ≤ exponent) :
    2 * (digits * unitsPerOne) < 10 ^ exponent := by
  have hdigits : digits < 2 * 2 ^ digits.log2 := by
    have := Nat.lt_log2_self (n := digits)
    rwa [Nat.pow_succ, Nat.mul_comm] at this
  obtain ⟨e, he⟩ : ∃ e, 401 = e := ⟨_, rfl⟩
  have hconst : 4 * unitsPerOne ≤ 10 ^ e := by
    subst he
    decide +kernel
  have hten : 2 ^ digits.log2 ≤ 10 ^ digits.log2 := Nat.pow_le_pow_left (by decide) _
  calc 2 * (digits * unitsPerOne)
      < 2 * (2 * 2 ^ digits.log2 * unitsPerOne) := by
        exact Nat.mul_lt_mul_of_pos_left
          ((Nat.mul_lt_mul_right unitsPerOne_pos).mpr hdigits) (by decide)
    _ = 2 ^ digits.log2 * (4 * unitsPerOne) := by ring
    _ ≤ 10 ^ digits.log2 * 10 ^ e := Nat.mul_le_mul hten hconst
    _ = 10 ^ (digits.log2 + e) := (Nat.pow_add 10 digits.log2 e).symm
    _ ≤ 10 ^ exponent := Nat.pow_le_pow_right (by decide) (he ▸ h)

/-- **A decimal is rounded as the ratio that it is**. -/
theorem ofDecimal_eq (negative : Bool) (digits : Nat) (exponent : Int) :
    ofDecimal negative digits exponent =
      ofRatio negative (digits * Nat.pow 10 exponent.toNat) (Nat.pow 10 (-exponent).toNat) := by
  have hten (k : Nat) : 0 < Nat.pow 10 k := Nat.pow_pos (by decide)
  unfold ofDecimal
  split
  · next h =>
    have hzero : 2 * (0 * unitsPerOne) < Nat.pow 10 (-exponent).toNat := by
      rw [Nat.zero_mul]
      exact hten _
    rw [ofRatio, h, Nat.zero_mul, rankOfRatio_eq_zero (hten _) hzero]
  · next hdigits =>
    split
    · next hlarge =>
      have hexp : (-exponent).toNat = 0 := by omega
      have hone : Nat.pow 10 0 = 1 := rfl
      have hpow := pow_le_of_large (Nat.one_le_iff_ne_zero.mpr hdigits)
        (by omega : 311 ≤ exponent.toNat)
      have hrank : rankOfRatio (digits * Nat.pow 10 exponent.toNat) 1 = infinityRank :=
        rankOfRatio_eq_infinityRank (by omega) hpow
      rw [hexp, hone, ofRatio, hrank, infinity]
    · split
      · next hsmall =>
        have hexp : exponent.toNat = 0 := by omega
        have hone : Nat.pow 10 0 = 1 := rfl
        rw [hexp, hone, Nat.mul_one, ofRatio, rankOfRatio_eq_zero (hten _)]
        exact lt_pow_of_small (by omega)
      · split
        · next h =>
          have hexp : (-exponent).toNat = 0 := by omega
          have hone : Nat.pow 10 0 = 1 := rfl
          rw [hexp, hone]
        · next h =>
          have hexp : exponent.toNat = 0 := by omega
          have hone : Nat.pow 10 0 = 1 := rfl
          rw [hexp, hone, Nat.mul_one]

/-- Zeros may be moved from the digits to the power of ten. -/
theorem ofDecimal_mul_pow (negative : Bool) (digits zeros : Nat) (exponent : Int) :
    ofDecimal negative (digits * 10 ^ zeros) exponent =
      ofDecimal negative digits (exponent + zeros) := by
  have hexp : zeros + exponent.toNat + (-(exponent + zeros)).toNat =
      (exponent + zeros).toNat + (-exponent).toNat := by omega
  have hcross : digits * 10 ^ zeros * 10 ^ exponent.toNat * 10 ^ (-(exponent + zeros)).toNat =
      digits * 10 ^ (exponent + zeros).toNat * 10 ^ (-exponent).toNat := by
    rw [Nat.mul_assoc digits, ← Nat.pow_add, Nat.mul_assoc digits, ← Nat.pow_add, hexp,
      Nat.pow_add, Nat.mul_assoc digits]
  have hrank := rankOfRatio_congr (Nat.pow_pos (by decide)) (Nat.pow_pos (by decide)) hcross
  rw [ofDecimal_eq, ofDecimal_eq]
  exact congrArg (ofRank negative) hrank

end Binary64

end Conditions
