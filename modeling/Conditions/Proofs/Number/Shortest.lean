import Conditions.Proofs.Number.Digits
import Conditions.Proofs.Number.Rounding

/-!
# Shortest digits

The digits of a finite number other than zero are found on one of the grids that are tried
(`shortest_eq_ofScaled`), and they read back as the number (`ofDecimal_shortest`).

The grids end with that of seventeen digits. There a step is smaller than the distance between
neighbouring magnitudes (`step_le`), so the point of the grid that is nearest to the number reads
back. Where the distance changes, just below the smallest magnitude with steps of one size, a point
below the number may be too far away, but the point above is near enough.
-/

namespace Conditions

namespace Binary64

variable {x : Binary64} {n : Nat} {exponent : Int}

/-! ### On a grid -/

/-- The magnitude of a number over a power of ten, as one fraction for both signs of the power. -/
theorem overPower_eq (x : Binary64) (exponent : Int) :
    x.overPower exponent =
      (units x.rank * Nat.pow 10 (-exponent).toNat, unitsPerOne * Nat.pow 10 exponent.toNat) := by
  have hone : Nat.pow 10 0 = 1 := rfl
  unfold overPower
  split
  · next h =>
    have hexp : (-exponent).toNat = 0 := by omega
    rw [hexp, hone, Nat.mul_one]
  · next h =>
    have hexp : exponent.toNat = 0 := by omega
    rw [hexp, hone, Nat.mul_one]

theorem readsBack_iff : x.readsBack n exponent = true ↔
    rankOfRatio (n * Nat.pow 10 exponent.toNat) (Nat.pow 10 (-exponent).toNat) = x.rank := by
  rw [readsBack, beq_iff_eq, ofDecimal_eq, rank_ofRatio]

/-- **A point near a number reads back**: less than half the distance between magnitudes away from
it, and not below the smallest magnitude with steps of this size. Here `width` is that distance and
`step` that of the grid, in one unit. -/
theorem readsBack_of_near (hfinite : x.rank < infinityRank) {step width : Nat}
    (hstep : step = unitsPerOne * Nat.pow 10 exponent.toNat)
    (hwidth : width = Nat.pow 2 (shift x.rank) * Nat.pow 10 (-exponent).toNat)
    (below : 2 * (significand x.rank * width) < 2 * (n * step) + width)
    (above : 2 * (n * step) < 2 * (significand x.rank * width) + width)
    (binade : shift x.rank = 0 ∨ ranksPerShift * width ≤ n * step) :
    x.readsBack n exponent = true := by
  have hscaled : n * Nat.pow 10 exponent.toNat * unitsPerOne = n * step := by
    rw [hstep, Nat.mul_comm unitsPerOne, Nat.mul_assoc]
  rw [readsBack_iff]
  subst hwidth
  refine rankOfRatio_eq (Nat.pow_pos (by decide)) hfinite ?_ ?_ ?_
  · rwa [hscaled]
  · rwa [hscaled]
  · rwa [hscaled]

/-- If a step of the grid is small against the distance between magnitudes, a neighbour of the
number on the grid reads back. -/
theorem readsBack_neighbour (hfinite : x.rank < infinityRank) {step width : Nat}
    (hstep : step = unitsPerOne * Nat.pow 10 exponent.toNat)
    (hwidth : width = Nat.pow 2 (shift x.rank) * Nat.pow 10 (-exponent).toNat)
    (hsmall : 10 ^ 16 * step ≤ significand x.rank * width) :
    x.readsBack (significand x.rank * width / step) exponent = true ∨
      x.readsBack (significand x.rank * width / step + 1) exponent = true := by
  have hpos : 0 < step := by
    rw [hstep]
    exact Nat.mul_pos unitsPerOne_pos (Nat.pow_pos (by decide))
  have hdiv := Nat.div_add_mod (significand x.rank * width) step
  have hmod := Nat.mod_lt (significand x.rank * width) hpos
  rw [Nat.mul_comm] at hdiv
  have hnext : (significand x.rank * width / step + 1) * step =
      significand x.rank * width / step * step + step := Nat.succ_mul _ _
  have hsig : significand x.rank * width ≤ (2 * ranksPerShift - 1) * width :=
    Nat.mul_le_mul_right width (by have := significand_lt x.rank; omega)
  have hwide : step < width := by
    unfold ranksPerShift at hsig
    omega
  by_cases hleast : shift x.rank ≠ 0 ∧ significand x.rank = ranksPerShift
  · -- the distance below the number is half of that above it
    refine .inr (readsBack_of_near hfinite hstep hwidth ?_ ?_ (.inr ?_))
    · omega
    · rw [hleast.2] at hsmall hdiv hmod hnext ⊢
      unfold ranksPerShift at hsmall hdiv hmod hnext ⊢
      omega
    · rw [← hleast.2]
      omega
  · have hbinade : shift x.rank = 0 ∨
        ranksPerShift * width + width ≤ significand x.rank * width := by
      rcases Nat.eq_zero_or_pos (shift x.rank) with h | h
      · exact .inl h
      · have hge := ranksPerShift_le_significand (Nat.pos_iff_ne_zero.mp h)
        have hlt : ranksPerShift + 1 ≤ significand x.rank := by
          rcases Nat.lt_or_ge ranksPerShift (significand x.rank) with hlt | hle
          · exact hlt
          · exact absurd ⟨Nat.pos_iff_ne_zero.mp h, Nat.le_antisymm hle hge⟩ hleast
        rw [← Nat.succ_mul]
        exact .inr (Nat.mul_le_mul_right width hlt)
    rcases Nat.lt_or_ge (2 * (significand x.rank * width % step)) step with h | h
    · exact .inl (readsBack_of_near hfinite hstep hwidth (by omega) (by omega)
        (hbinade.imp_right (by omega)))
    · exact .inr (readsBack_of_near hfinite hstep hwidth (by omega) (by omega)
        (hbinade.imp_right (by omega)))

/-! ### Seventeen digits -/

theorem units_pos (h : x.rank ≠ 0) : 0 < units x.rank := by
  have hsig : 0 < significand x.rank := by
    unfold significand ranksPerShift
    split <;> omega
  exact Nat.mul_pos hsig (Nat.pow_pos (by decide))

/-- The magnitude of a number in units of `10 ^ (-400)` is far from zero. The power has a name, as
that of `unitsPerOne_eq` has. -/
theorem le_scaled {e : Nat} (he : 400 = e) (h : x.rank ≠ 0) :
    10 ^ 76 ≤ units x.rank * 10 ^ e / unitsPerOne := by
  have hconst : 10 ^ 76 * unitsPerOne ≤ 10 ^ e := by
    subst he
    decide +kernel
  exact (Nat.le_div_iff_mul_le unitsPerOne_pos).mpr
    (Nat.le_trans hconst (Nat.le_mul_of_pos_left _ (units_pos h)))

theorem pointPosition_eq {e : Nat} (he : 400 = e) : x.pointPosition =
    (Nat.toDigits 10 (units x.rank * 10 ^ e / unitsPerOne)).length - 400 := by
  unfold pointPosition
  rw [he]
  rfl

/-- On the last grid a number has at least seventeen digits. -/
theorem step_le (h : x.rank ≠ 0) (hexp : exponent = x.pointPosition - 17) :
    10 ^ 16 * (unitsPerOne * Nat.pow 10 exponent.toNat) ≤
      units x.rank * Nat.pow 10 (-exponent).toNat := by
  obtain ⟨e, he⟩ : ∃ e, 400 = e := ⟨_, rfl⟩
  obtain ⟨scaled, hscaled⟩ : ∃ scaled, scaled = units x.rank * 10 ^ e / unitsPerOne := ⟨_, rfl⟩
  obtain ⟨length, hlength⟩ : ∃ length, length = (Nat.toDigits 10 scaled).length := ⟨_, rfl⟩
  have hle : 10 ^ 76 ≤ scaled := hscaled ▸ le_scaled he h
  have hpoint : x.pointPosition = length - 400 := by rw [hlength, hscaled, pointPosition_eq he]
  have hlong : 76 < length := by
    rw [hlength, ← Nat.not_le, Nat.length_toDigits_le_iff (by decide) (by decide)]
    omega
  have hdigits : 10 ^ (length - 1) ≤ scaled := by
    rw [← Nat.not_lt, ← Nat.length_toDigits_le_iff (by decide) (by omega), ← hlength]
    omega
  have hfirst : 10 ^ (length - 1) * unitsPerOne ≤ units x.rank * 10 ^ e :=
    (Nat.le_div_iff_mul_le unitsPerOne_pos).mp (hscaled ▸ hdigits)
  have hrest : 0 < Nat.pow 10 (e - (-exponent).toNat) := Nat.pow_pos (by decide)
  have hlhs : 16 + exponent.toNat + (e - (-exponent).toNat) = length - 1 := by omega
  have hrhs : (-exponent).toNat + (e - (-exponent).toNat) = e := by omega
  refine Nat.le_of_mul_le_mul_right ?_ hrest
  calc 10 ^ 16 * (unitsPerOne * 10 ^ exponent.toNat) * 10 ^ (e - (-exponent).toNat)
      = unitsPerOne * (10 ^ 16 * 10 ^ exponent.toNat * 10 ^ (e - (-exponent).toNat)) := by ring
    _ = 10 ^ (length - 1) * unitsPerOne := by
        rw [← Nat.pow_add, ← Nat.pow_add, hlhs, Nat.mul_comm]
    _ ≤ units x.rank * 10 ^ e := hfirst
    _ = units x.rank * 10 ^ (-exponent).toNat * 10 ^ (e - (-exponent).toNat) := by
        rw [Nat.mul_assoc, ← Nat.pow_add, hrhs]

/-! ### The grid that is found -/

theorem readsBack_of_neighbour? (h : x.neighbour? exponent = some n) :
    x.readsBack n exponent = true := by
  unfold neighbour? at h
  revert h
  dsimp only
  split
  · next hlow hnext =>
    intro h
    cases h
    split
    · exact hlow
    · exact hnext
  · next hlow _ =>
    intro h
    cases h
    exact hlow
  · next _ hnext =>
    intro h
    cases h
    exact hnext
  · intro h
    cases h

theorem neighbour?_isSome (h : x.readsBack ((x.overPower exponent).1 / (x.overPower exponent).2)
      exponent = true ∨
    x.readsBack ((x.overPower exponent).1 / (x.overPower exponent).2 + 1) exponent = true) :
    (x.neighbour? exponent).isSome = true := by
  unfold neighbour?
  dsimp only
  split
  · rfl
  · rfl
  · rfl
  · next hlow hnext => simp [hlow, hnext] at h

/-- The last grid has a point that reads back. -/
theorem neighbour?_last (hfinite : x.rank < infinityRank) (h : x.rank ≠ 0) :
    (x.neighbour? (x.pointPosition - 17)).isSome = true := by
  refine neighbour?_isSome ?_
  obtain ⟨exponent, hexp⟩ : ∃ exponent, exponent = x.pointPosition - 17 := ⟨_, rfl⟩
  have hstep := step_le h hexp
  have hunits : units x.rank * Nat.pow 10 (-exponent).toNat =
      significand x.rank * (Nat.pow 2 (shift x.rank) * Nat.pow 10 (-exponent).toNat) :=
    Nat.mul_assoc _ _ _
  rw [hunits] at hstep
  rw [← hexp, overPower_eq, hunits]
  exact readsBack_neighbour hfinite rfl rfl hstep

/-- Zero does not read back as another number. -/
theorem ne_zero_of_readsBack (h : x.rank ≠ 0) (hback : x.readsBack n exponent = true) : n ≠ 0 := by
  rintro rfl
  have hzero : rankOfRatio 0 (Nat.pow 10 (-exponent).toNat) = 0 :=
    rankOfRatio_eq_zero (Nat.pow_pos (by decide)) (by
      rw [Nat.zero_mul]
      exact Nat.pow_pos (by decide))
  rw [readsBack_iff, Nat.zero_mul, hzero] at hback
  exact h hback.symm

/-- One of the grids has the digits. -/
theorem shortest_eq_ofScaled (hfinite : x.rank < infinityRank) (h : x.rank ≠ 0) :
    ∃ n exponent, n ≠ 0 ∧ x.readsBack n exponent = true ∧
      x.shortest = Digits.ofScaled n exponent := by
  unfold shortest
  rw [if_neg h]
  dsimp only
  split
  · next digits hfound =>
    obtain ⟨exponent, -, hsome⟩ := List.exists_of_findSome?_eq_some hfound
    obtain ⟨n, hn, rfl⟩ := Option.map_eq_some_iff.mp hsome
    have hback := readsBack_of_neighbour? hn
    exact ⟨n, exponent, ne_zero_of_readsBack h hback, hback, rfl⟩
  · next hnone =>
    have hlast := List.findSome?_eq_none_iff.mp hnone (x.pointPosition - 17)
      (List.mem_map.mpr ⟨16, by decide, rfl⟩)
    have hsome := neighbour?_last hfinite h
    rw [Option.map_eq_none_iff.mp hlast] at hsome
    cases hsome

theorem shortest_zero (h : x.rank = 0) : x.shortest = ⟨['0'], 1⟩ := if_pos h

theorem proper_shortest (hfinite : x.rank < infinityRank) : x.shortest.Proper := by
  by_cases h : x.rank = 0
  · rw [shortest_zero h]
    exact Digits.proper_zero
  · obtain ⟨n, exponent, hn, -, hshortest⟩ := shortest_eq_ofScaled hfinite h
    rw [hshortest]
    exact Digits.proper_ofScaled hn exponent

/-- **The shortest digits read back**, with the sign of the number. -/
theorem ofDecimal_shortest (hfinite : x.rank < infinityRank) :
    ofDecimal x.negative (decimalValue x.shortest.digits)
      (x.shortest.point - x.shortest.digits.length) = x := by
  by_cases h : x.rank = 0
  · rw [shortest_zero h]
    calc ofDecimal x.negative 0 0 = ofRank x.negative 0 := if_pos rfl
      _ = x := by rw [← h, ofRank_negative_rank]
  · obtain ⟨n, exponent, -, hback, hshortest⟩ := shortest_eq_ofScaled hfinite h
    obtain ⟨zeros, hn, hpoint⟩ := Digits.eq_mul_pow_of_ofScaled n exponent
    rw [hshortest, hpoint, ← ofDecimal_mul_pow, ← hn, ofDecimal_eq]
    calc ofRank x.negative _ = ofRank x.negative x.rank := by rw [readsBack_iff.mp hback]
      _ = x := ofRank_negative_rank x

end Binary64

end Conditions
