import Conditions.Proofs.Number.Rounding
import Mathlib.Algebra.Order.Field.Rat
import Mathlib.Algebra.Order.Group.Unbundled.Abs
import Mathlib.Order.Monotone.Basic
import Mathlib.Tactic.FieldSimp

/-!
# The nearest number

A rank is nearest to a magnitude if no other rank is nearer, and if it is even where another is as
near (`IsNearest`). Infinity takes part with the power of two that comes after the largest finite
magnitude; so it is nearest to whatever is rounded past that magnitude. There is no more than one
nearest rank (`IsNearest.unique`).

Ratios and decimals are rounded to the nearest number (`isNearest_rankOfRatio`,
`isRounded_ofDecimal`): magnitudes grow with their ranks, so a rank is nearest as soon as the
magnitude lies between the midpoints to its two neighbours (`isNearest_of_midpoints`), and rounding
picks one of the two ranks around the magnitude by the midpoint between them.
-/

namespace Conditions

namespace Binary64

/-- The magnitude of a rank. That of infinity is the power of two after the largest finite one. -/
def magnitude (rank : Nat) : ℚ := units rank / unitsPerOne

/-- A rank is nearest to a magnitude, and even if another is as near. -/
structure IsNearest (q : ℚ) (rank : Nat) : Prop where
  /-- The rank is that of a number. -/
  le : rank ≤ infinityRank
  /-- No other rank is nearer. -/
  nearest : ∀ other ≤ infinityRank, |q - magnitude rank| ≤ |q - magnitude other|
  /-- If another rank is as near, the rank is even. -/
  even : ∀ other ≤ infinityRank, other ≠ rank →
    |q - magnitude other| = |q - magnitude rank| → rank % 2 = 0

/-- A number is a magnitude rounded to the nearest, with a sign. -/
structure IsRounded (negative : Bool) (q : ℚ) (x : Binary64) : Prop where
  /-- The number has the sign. -/
  sign : x.negative = negative
  /-- Its rank is nearest to the magnitude. -/
  nearest : IsNearest q x.rank

/-! ### Magnitudes grow with their ranks -/

/-- A rank as steps of one size, from the binade of that size or the end of the one before. -/
theorem units_eq {k m : Nat} (hm : m ≤ 2 * ranksPerShift) (hk : k = 0 ∨ ranksPerShift ≤ m) :
    units (k * ranksPerShift + m) = m * 2 ^ k := by
  rcases Nat.lt_or_eq_of_le hm with hlt | rfl
  · have hshift : shift (k * ranksPerShift + m) = k := by
      unfold shift ranksPerShift at *
      omega
    have hsig : significand (k * ranksPerShift + m) = m := by
      unfold significand ranksPerShift at *
      split <;> omega
    rw [units, hshift, hsig]
    rfl
  · have hshift : shift (k * ranksPerShift + 2 * ranksPerShift) = k + 1 := by
      unfold shift ranksPerShift
      omega
    have hsig : significand (k * ranksPerShift + 2 * ranksPerShift) = ranksPerShift := by
      unfold significand ranksPerShift
      split <;> omega
    have hpow : Nat.pow 2 (k + 1) = 2 ^ k * 2 := Nat.pow_succ 2 k
    rw [units, hshift, hsig, hpow]
    ring

theorem units_succ (rank : Nat) : units (rank + 1) = units rank + 2 ^ shift rank := by
  have hsig := significand_lt rank
  have hbinade : shift rank = 0 ∨ ranksPerShift ≤ significand rank + 1 := by
    by_cases h : shift rank = 0
    · exact .inl h
    · exact .inr (Nat.le_succ_of_le (ranksPerShift_le_significand h))
  have hunits : units (rank + 1) = (significand rank + 1) * 2 ^ shift rank := by
    rw [← units_eq (by omega) hbinade, ← Nat.add_assoc, shift_mul_add_significand]
  rw [hunits, Nat.succ_mul]
  rfl

theorem cast_unitsPerOne_pos : (0 : ℚ) < unitsPerOne := by exact_mod_cast unitsPerOne_pos

theorem magnitude_strictMono : StrictMono magnitude := by
  refine strictMono_nat_of_lt_succ fun rank => ?_
  have hlt : units rank < units (rank + 1) := by
    rw [units_succ]
    exact Nat.lt_add_of_pos_right (Nat.two_pow_pos _)
  exact (div_lt_div_iff_of_pos_right cast_unitsPerOne_pos).mpr (by exact_mod_cast hlt)

/-! ### The nearest rank -/

/-- What is as near to two numbers lies halfway between them. -/
theorem two_mul_eq_add {q a b : ℚ} (h : |q - a| = |q - b|) (hne : a ≠ b) : 2 * q = a + b := by
  rcases abs_eq_abs.mp h with h | h
  · exact absurd (by linarith) hne
  · linarith

theorem IsNearest.unique {q : ℚ} {r s : Nat} (hr : IsNearest q r) (hs : IsNearest q s) : r = s := by
  have heq : |q - magnitude r| = |q - magnitude s| :=
    le_antisymm (hr.nearest s hs.le) (hs.nearest r hr.le)
  -- of two nearest ranks both would be even, and the one between them nearer
  have hnot {a b : Nat} (ha : IsNearest q a) (hb : IsNearest q b) (hab : a < b)
      (heq : |q - magnitude a| = |q - magnitude b|) : False := by
    have hlt := magnitude_strictMono hab
    have hmid := two_mul_eq_add heq hlt.ne
    have heven := ha.even b hb.le hab.ne' heq.symm
    have heven' := hb.even a ha.le hab.ne heq
    have hlow := magnitude_strictMono (Nat.lt_succ_self a)
    have hhigh := magnitude_strictMono (show a + 1 < b by omega)
    have hnear := ha.nearest (a + 1) (by have := hb.le; omega)
    have habs : |q - magnitude (a + 1)| < |q - magnitude a| := by
      rw [abs_of_pos (show 0 < q - magnitude a by linarith)]
      exact abs_lt.mpr ⟨by linarith, by linarith⟩
    exact absurd hnear (not_le.mpr habs)
  rcases Nat.lt_trichotomy r s with h | h | h
  · exact (hnot hr hs h heq).elim
  · exact h
  · exact (hnot hs hr h heq.symm).elim

/-- **A rank is nearest to what lies between the midpoints to its neighbours**, if it is even where
this is one of the midpoints. -/
theorem isNearest_of_midpoints {q : ℚ} {rank : Nat} (hrank : rank ≤ infinityRank)
    (below : ∀ low, low + 1 = rank → magnitude low + magnitude rank ≤ 2 * q ∧
      (magnitude low + magnitude rank = 2 * q → rank % 2 = 0))
    (above : rank < infinityRank → 2 * q ≤ magnitude rank + magnitude (rank + 1) ∧
      (2 * q = magnitude rank + magnitude (rank + 1) → rank % 2 = 0)) : IsNearest q rank := by
  have hbelow {other : Nat} (h : other < rank) : magnitude other < magnitude rank ∧
      magnitude other + magnitude rank ≤ 2 * q ∧
      (magnitude other + magnitude rank = 2 * q → rank % 2 = 0) := by
    obtain ⟨hle, heven⟩ := below (rank - 1) (by omega)
    have hmono := magnitude_strictMono.monotone (show other ≤ rank - 1 by omega)
    exact ⟨magnitude_strictMono h, by linarith, fun heq => heven (by linarith)⟩
  have habove {other : Nat} (h : rank < other) (hother : other ≤ infinityRank) :
      magnitude rank < magnitude other ∧ 2 * q ≤ magnitude rank + magnitude other ∧
      (2 * q = magnitude rank + magnitude other → rank % 2 = 0) := by
    obtain ⟨hle, heven⟩ := above (by omega)
    have hmono := magnitude_strictMono.monotone (show rank + 1 ≤ other by omega)
    exact ⟨magnitude_strictMono h, by linarith, fun heq => heven (by linarith)⟩
  refine ⟨hrank, fun other hother => ?_, fun other hother hne heq => ?_⟩
  · rcases Nat.lt_trichotomy other rank with h | rfl | h
    · obtain ⟨hlt, hle, -⟩ := hbelow h
      exact (abs_le.mpr ⟨by linarith, by linarith⟩).trans (le_abs_self _)
    · exact le_rfl
    · obtain ⟨hlt, hle, -⟩ := habove h hother
      rw [abs_sub_comm q (magnitude other)]
      exact (abs_le.mpr ⟨by linarith, by linarith⟩).trans (le_abs_self _)
  · rcases Nat.lt_or_gt_of_ne hne with h | h
    · obtain ⟨hlt, -, heven⟩ := hbelow h
      exact heven (two_mul_eq_add heq hlt.ne).symm
    · obtain ⟨hlt, -, heven⟩ := habove h hother
      exact heven (two_mul_eq_add heq.symm hlt.ne)

/-- In the lower half of the step to the next rank a rank is nearest. -/
theorem isNearest_of_lower_half {q : ℚ} {low : Nat} (hlow : low ≤ infinityRank)
    (hq : magnitude low ≤ q) (hhalf : 2 * q ≤ magnitude low + magnitude (low + 1))
    (heven : 2 * q = magnitude low + magnitude (low + 1) → low % 2 = 0) : IsNearest q low := by
  refine isNearest_of_midpoints hlow (fun other hother => ?_) fun _ => ⟨hhalf, heven⟩
  have hlt := magnitude_strictMono (show other < low by omega)
  exact ⟨by linarith, fun h => absurd h (by linarith)⟩

/-- In the upper half of the step to a rank the rank is nearest. -/
theorem isNearest_of_upper_half {q : ℚ} {low : Nat} (hlow : low < infinityRank)
    (hq : q ≤ magnitude (low + 1)) (hhalf : magnitude low + magnitude (low + 1) ≤ 2 * q)
    (heven : magnitude low + magnitude (low + 1) = 2 * q → (low + 1) % 2 = 0) :
    IsNearest q (low + 1) := by
  refine isNearest_of_midpoints hlow (fun other hother => ?_) fun _ => ?_
  · obtain rfl : other = low := Nat.succ_inj.mp hother
    exact ⟨hhalf, heven⟩
  · have hlt := magnitude_strictMono (Nat.lt_succ_self (low + 1))
    exact ⟨by linarith, fun h => absurd h (by linarith)⟩

/-- Infinity is nearest to all that reaches its magnitude. -/
theorem isNearest_infinityRank {q : ℚ} (h : magnitude infinityRank ≤ q) :
    IsNearest q infinityRank := by
  refine isNearest_of_midpoints le_rfl (fun low hlow => ?_) fun hlt => absurd hlt (lt_irrefl _)
  have hlt := magnitude_strictMono (show low < infinityRank by omega)
  exact ⟨by linarith, fun _ => rfl⟩

/-! ### Ratios -/

/-- The quotient that is rounded has at most 53 binary digits. -/
theorem div_pow_log2_lt (n : Nat) : n / 2 ^ (n.log2 - 52) < 2 * ranksPerShift := by
  refine Nat.div_lt_of_lt_mul ?_
  have hpow : 2 ^ (n.log2 - 52) * (2 * ranksPerShift) = 2 ^ (n.log2 - 52 + 53) :=
    (Nat.pow_add 2 _ 53).symm
  rw [hpow]
  exact Nat.lt_of_lt_of_le Nat.lt_log2_self (Nat.pow_le_pow_right (by decide) (by omega))

/-- It has no fewer, unless it is the whole number itself. -/
theorem le_div_pow_log2 (n : Nat) :
    n.log2 - 52 = 0 ∨ ranksPerShift ≤ n / 2 ^ (n.log2 - 52) := by
  by_cases h : n.log2 - 52 = 0
  · exact .inl h
  · have hn : n ≠ 0 := by
      rintro rfl
      exact h rfl
    have hpow : ranksPerShift * 2 ^ (n.log2 - 52) = 2 ^ n.log2 := by
      have hsum : 52 + (n.log2 - 52) = n.log2 := by omega
      conv_rhs => rw [← hsum, Nat.pow_add]
      rfl
    refine .inr ((Nat.le_div_iff_mul_le (Nat.two_pow_pos _)).mpr ?_)
    rw [hpow]
    exact Nat.log2_self_le hn

/-- A ratio lies in the step from one rank to the next, and its rank is one of the two; how far it
lies from the lower one, against the width of the step, tells which. -/
theorem rankOfRatio_eq_ite (num : Nat) {den : Nat} (hden : 0 < den) :
    ∃ low width rest, units low * den + rest = num * unitsPerOne ∧
      units (low + 1) * den = units low * den + width ∧ rest < width ∧
      rankOfRatio num den = min infinityRank
        (if 2 * rest < width then low else if width < 2 * rest then low + 1
          else low + low % 2) := by
  obtain ⟨n, hn⟩ : ∃ n, n = num * unitsPerOne := ⟨_, rfl⟩
  obtain ⟨k, hk⟩ : ∃ k, k = (n / den).log2 - 52 := ⟨_, rfl⟩
  obtain ⟨width, hwidth⟩ : ∃ width, width = den * 2 ^ k := ⟨_, rfl⟩
  have hpos : 0 < width := hwidth ▸ Nat.mul_pos hden (Nat.two_pow_pos k)
  have hdiv : n / width = n / den / 2 ^ k := by rw [hwidth, Nat.div_div_eq_div_mul]
  have hlt : n / width < 2 * ranksPerShift := by
    rw [hdiv, hk]
    exact div_pow_log2_lt _
  have hge : k = 0 ∨ ranksPerShift ≤ n / width := by
    rw [hdiv, hk]
    exact le_div_pow_log2 _
  have hlow := units_eq hlt.le hge
  have hhigh := units_eq (Nat.succ_le_of_lt hlt) (hge.imp_right Nat.le_succ_of_le)
  have heven : (k * ranksPerShift + n / width) % 2 = n / width % 2 := by
    unfold ranksPerShift
    omega
  refine ⟨k * ranksPerShift + n / width, width, n % width, ?_, ?_, Nat.mod_lt _ hpos, ?_⟩
  · calc units (k * ranksPerShift + n / width) * den + n % width
        = width * (n / width) + n % width := by rw [hlow, hwidth]; ring
      _ = num * unitsPerOne := by rw [Nat.div_add_mod, hn]
  · rw [Nat.add_assoc, hhigh, hlow, Nat.succ_mul, Nat.add_mul, hwidth, Nat.mul_comm (2 ^ k)]
  · have hrank : rankOfRatio num den =
        min infinityRank (k * ranksPerShift + nearestEven n width) := by
      rw [hwidth, hk, hn]
      rfl
    rw [hrank, heven, nearestEven]
    split
    · rfl
    · split <;> rw [Nat.add_assoc]

/-- Magnitudes in a unit that a denominator goes into. -/
theorem magnitude_eq {rank den n : Nat} (hden : 0 < den) (h : units rank * den = n) :
    magnitude rank = n / (den * unitsPerOne) := by
  have hdenq : (den : ℚ) ≠ 0 := by exact_mod_cast hden.ne'
  rw [magnitude, ← h, Nat.cast_mul, mul_comm (den : ℚ), mul_div_mul_right _ _ hdenq]

theorem ratio_eq {num den n : Nat} (h : num * unitsPerOne = n) :
    (num / den : ℚ) = n / (den * unitsPerOne) := by
  rw [← h, Nat.cast_mul, mul_div_mul_right _ _ cast_unitsPerOne_pos.ne']

/-- **A ratio is rounded to the nearest rank.** -/
theorem isNearest_rankOfRatio (num : Nat) {den : Nat} (hden : 0 < den) :
    IsNearest (num / den) (rankOfRatio num den) := by
  obtain ⟨low, width, rest, hlow, hwidth, hrest, hrank⟩ := rankOfRatio_eq_ite num hden
  obtain ⟨n, hn⟩ : ∃ n, n = units low * den := ⟨_, rfl⟩
  obtain ⟨unit, hunit⟩ : ∃ unit : ℚ, unit = den * unitsPerOne := ⟨_, rfl⟩
  have hpos : 0 < unit := hunit ▸ mul_pos (by exact_mod_cast hden) cast_unitsPerOne_pos
  -- both ends of the step and the ratio, in one unit
  have hq : (num / den : ℚ) = (n + rest : Nat) / unit := hunit ▸ ratio_eq (by rw [hn, hlow])
  have hend : magnitude low = n / unit := hunit ▸ magnitude_eq hden hn.symm
  have hnext : magnitude (low + 1) = (n + width : Nat) / unit :=
    hunit ▸ magnitude_eq hden (by rw [hwidth, hn])
  have hsum (a b : Nat) : (a / unit + b / unit : ℚ) = (a + b : Nat) / unit := by
    rw [Nat.cast_add, add_div]
  have hdouble (a : Nat) : (2 * (a / unit) : ℚ) = (2 * a : Nat) / unit := by
    rw [Nat.cast_mul, mul_div_assoc, Nat.cast_ofNat]
  have hle (a b : Nat) : (a / unit : ℚ) ≤ b / unit ↔ a ≤ b :=
    (div_le_div_iff_of_pos_right hpos).trans Nat.cast_le
  have hinj (a b : Nat) : (a / unit : ℚ) = b / unit ↔ a = b :=
    (div_left_inj' hpos.ne').trans Nat.cast_inj
  have habove : magnitude low ≤ num / den := by
    rw [hend, hq, hle]
    omega
  rw [hrank]
  rcases Nat.lt_or_ge low infinityRank with hfinite | hinfinite
  · have hlower (h : 2 * rest ≤ width) (heven : 2 * rest = width → low % 2 = 0) :
        IsNearest (num / den) low := by
      refine isNearest_of_lower_half hfinite.le habove ?_ fun heq => heven ?_
      · rw [hend, hnext, hq, hsum, hdouble, hle]
        omega
      · rw [hend, hnext, hq, hsum, hdouble, hinj] at heq
        omega
    have hupper (h : width ≤ 2 * rest) (heven : 2 * rest = width → (low + 1) % 2 = 0) :
        IsNearest (num / den) (low + 1) := by
      refine isNearest_of_upper_half hfinite ?_ ?_ fun heq => heven ?_
      · rw [hnext, hq, hle]
        omega
      · rw [hend, hnext, hq, hsum, hdouble, hle]
        omega
      · rw [hend, hnext, hq, hsum, hdouble, hinj] at heq
        omega
    split
    · rw [Nat.min_eq_right hfinite.le]
      exact hlower (by omega) (by omega)
    · split
      · rw [Nat.min_eq_right hfinite]
        exact hupper (by omega) (by omega)
      · rcases Nat.mod_two_eq_zero_or_one low with h | h
        · rw [h, Nat.add_zero, Nat.min_eq_right hfinite.le]
          exact hlower (by omega) fun _ => h
        · rw [h, Nat.min_eq_right hfinite]
          exact hupper (by omega) (by omega)
  · rw [Nat.min_eq_left]
    · exact isNearest_infinityRank ((magnitude_strictMono.monotone hinfinite).trans habove)
    · split
      · exact hinfinite
      · split <;> omega

/-! ### Whole numbers -/

/-- A rank is nearest to its own magnitude. -/
theorem isNearest_magnitude {rank : Nat} (h : rank ≤ infinityRank) :
    IsNearest (magnitude rank) rank := by
  have hnext := magnitude_strictMono (Nat.lt_succ_self rank)
  exact isNearest_of_lower_half h le_rfl (by linarith) fun heq => absurd heq (by linarith)

/-- A whole number that is the magnitude of a rank is rounded to the rank, or to infinity. -/
theorem rankOfRatio_of_units {rank n : Nat} (h : units rank = n * unitsPerOne) :
    rankOfRatio n 1 = min infinityRank rank := by
  have hq : (n / (1 : Nat) : ℚ) = magnitude rank := by
    rw [Nat.cast_one, div_one, magnitude, h, Nat.cast_mul,
      mul_div_cancel_right₀ _ cast_unitsPerOne_pos.ne']
  have hnearest := isNearest_rankOfRatio n Nat.one_pos
  rw [hq] at hnearest
  refine hnearest.unique ?_
  rcases Nat.le_total rank infinityRank with hle | hle
  · rw [Nat.min_eq_right hle]
    exact isNearest_magnitude hle
  · rw [Nat.min_eq_left hle]
    exact isNearest_infinityRank (magnitude_strictMono.monotone hle)

theorem log2_eq_of_between {n m j : Nat} (hlow : 2 ^ m * 2 ^ j ≤ n)
    (hhigh : n < 2 ^ (m + 1) * 2 ^ j) : n.log2 = m + j := by
  rw [← Nat.pow_add] at hlow hhigh
  have hpos : n ≠ 0 := (Nat.lt_of_lt_of_le (Nat.two_pow_pos _) hlow).ne'
  refine (Nat.log2_eq_iff hpos).mpr ⟨hlow, ?_⟩
  rwa [Nat.add_right_comm] at hhigh

theorem log2_mul_two_pow {n : Nat} (hn : n ≠ 0) (j : Nat) : (n * 2 ^ j).log2 = n.log2 + j :=
  log2_eq_of_between (Nat.mul_le_mul_right _ (Nat.log2_self_le hn))
    (Nat.mul_lt_mul_of_pos_right Nat.lt_log2_self (Nat.two_pow_pos j))

/-- A whole number of at least 53 binary digits is counted in steps of its last place that is
kept. -/
theorem rankOfRatio_whole {n : Nat} (h : 2 ^ 52 ≤ n) :
    rankOfRatio n 1 = min infinityRank
      ((n.log2 + 1022) * ranksPerShift + nearestEven n (2 ^ (n.log2 - 52))) := by
  have hn : n ≠ 0 := by omega
  have hlog : 52 ≤ n.log2 := (Nat.le_log2 hn).mpr h
  obtain ⟨e, he⟩ : ∃ e, 1074 = e := ⟨_, rfl⟩
  have hscaled : (n * unitsPerOne / 1).log2 - 52 = n.log2 + 1022 := by
    have hlog2 : (n * unitsPerOne).log2 = n.log2 + e := by
      rw [unitsPerOne_eq he]
      exact log2_mul_two_pow hn e
    rw [Nat.div_one, hlog2]
    omega
  have hstep : 1 * Nat.pow 2 (n.log2 + 1022) = unitsPerOne * 2 ^ (n.log2 - 52) := by
    have hsum : e + (n.log2 - 52) = n.log2 + 1022 := by omega
    rw [Nat.one_mul, ← hsum, unitsPerOne_eq he, ← Nat.pow_add]
    rfl
  simp only [rankOfRatio]
  rw [hscaled, hstep, Nat.mul_comm n, nearestEven_mul_left unitsPerOne_pos]

/-! ### Rounded numbers -/

theorem negative_ofRatio (negative : Bool) (num den : Nat) :
    (ofRatio negative num den).negative = negative :=
  negative_ofRank (Nat.lt_of_le_of_lt (rankOfRatio_le num den) (by decide))

theorem isRounded_ofRatio (negative : Bool) (num : Nat) {den : Nat} (hden : 0 < den) :
    IsRounded negative (num / den) (ofRatio negative num den) := by
  refine ⟨negative_ofRatio negative num den, ?_⟩
  rw [rank_ofRatio]
  exact isNearest_rankOfRatio num hden

theorem isRounded_ofNat (n : Nat) : IsRounded false n (ofNat n) := by
  have h := isRounded_ofRatio false n Nat.one_pos
  rwa [Nat.cast_one, div_one] at h

/-- **A decimal is rounded to the nearest number**, whatever its power of ten. -/
theorem isRounded_ofDecimal (negative : Bool) (digits : Nat) (exponent : Int) :
    IsRounded negative (digits * 10 ^ exponent) (ofDecimal negative digits exponent) := by
  have hratio : (digits * 10 ^ exponent : ℚ) =
      (digits * Nat.pow 10 exponent.toNat : Nat) / (Nat.pow 10 (-exponent).toNat : Nat) := by
    have hexp : exponent = exponent.toNat - (-exponent).toNat := by omega
    have hten : (10 : ℚ) ≠ 0 := by norm_num
    conv_lhs => rw [hexp, zpow_sub₀ hten, zpow_natCast, zpow_natCast]
    simp only [Nat.pow_eq, Nat.cast_mul, Nat.cast_pow, Nat.cast_ofNat]
    rw [mul_div_assoc]
  rw [hratio, ofDecimal_eq]
  exact isRounded_ofRatio negative _ (Nat.pow_pos (by decide))

/-- A number that is rounded is some number. -/
theorem IsRounded.isNaN {negative : Bool} {q : ℚ} {x : Binary64} (h : IsRounded negative q x) :
    x.isNaN = false :=
  decide_eq_false (Nat.not_lt.mpr h.nearest.le)

/-- There is one rounded number. -/
theorem IsRounded.unique {negative : Bool} {q : ℚ} {x y : Binary64} (hx : IsRounded negative q x)
    (hy : IsRounded negative q y) : x = y := by
  rw [← ofRank_negative_rank x, ← ofRank_negative_rank y, hx.sign, hy.sign,
    hx.nearest.unique hy.nearest]

end Binary64

end Conditions
