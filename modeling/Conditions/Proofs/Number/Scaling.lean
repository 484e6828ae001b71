import Conditions.Number.Scaling
import Conditions.Proofs.Number.Values

/-!
# What scaling gives

A product or quotient of two numbers is the number nearest to that of their magnitudes
(`isRounded_mul`, `isRounded_div`). Up to `2 ^ 53` the digits are themselves a number, and up to
`10 ^ 22` so are the powers of ten; so digits that are scaled within these bounds are rounded only
once, and to the nearest number (`isRounded_ofScaled`). Beyond them up to three roundings may add up
to another number.
-/

namespace Conditions.Binary64

variable {negative : Bool} {digits k : Nat} {exponent : Int}

/-! ### Products and quotients -/

theorem magnitude_mul (r s : Nat) :
    ((units r * units s : Nat) / (unitsPerOne * unitsPerOne : Nat) : ℚ) =
      magnitude r * magnitude s := by
  rw [magnitude, magnitude, Nat.cast_mul, Nat.cast_mul, div_mul_div_comm]

theorem magnitude_div (r s : Nat) : (units r / units s : ℚ) = magnitude r / magnitude s := by
  rw [magnitude, magnitude, div_div_div_cancel_right₀ cast_unitsPerOne_pos.ne']

theorem isRounded_mul (x y : Binary64) :
    IsRounded (x.negative != y.negative) (magnitude x.rank * magnitude y.rank) (x.mul y) := by
  rw [← magnitude_mul]
  exact isRounded_ofRatio _ _ (Nat.mul_pos unitsPerOne_pos unitsPerOne_pos)

theorem isRounded_div (x : Binary64) {y : Binary64} (hy : 0 < units y.rank) :
    IsRounded (x.negative != y.negative) (magnitude x.rank / magnitude y.rank) (x.div y) := by
  rw [← magnitude_div]
  exact isRounded_ofRatio _ _ hy

/-! ### Powers of ten -/

theorem negative_powerOfTen (k : Nat) : (powerOfTen k).negative = false := negative_ofRatio _ _ _

/-- Powers of ten up to `10 ^ 22` are numbers, since their odd factors are below `2 ^ 53`. -/
theorem units_powerOfTen (hk : k ≤ 22) : units (powerOfTen k).rank = 10 ^ k * unitsPerOne :=
  (by decide +kernel : ∀ k < 23, units (powerOfTen k).rank = 10 ^ k * unitsPerOne) k
    (Nat.lt_succ_of_le hk)

theorem magnitude_powerOfTen (hk : k ≤ 22) : magnitude (powerOfTen k).rank = 10 ^ k := by
  rw [magnitude, units_powerOfTen hk, Nat.cast_mul,
    mul_div_cancel_right₀ _ cast_unitsPerOne_pos.ne', Nat.cast_pow, Nat.cast_ofNat]

/-! ### Scaled digits -/

/-- Digits up to `2 ^ 53` are a number. -/
theorem magnitude_ofRatio_one (negative : Bool) (h : digits ≤ 2 ^ 53) :
    magnitude (ofRatio negative digits 1).rank = digits := by
  have hrounded := (isRounded_ofRatio negative digits Nat.one_pos).nearest
  rw [Nat.cast_one, div_one] at hrounded
  exact hrounded.magnitude_eq h

theorem isRounded_multiplyBy (negative : Bool) (hdigits : digits ≤ 2 ^ 53) (hk : k ≤ 22) :
    IsRounded negative (digits * 10 ^ k) ((ofRatio negative digits 1).multiplyBy k) := by
  have hproduct := isRounded_mul (ofRatio negative digits 1) (powerOfTen k)
  rw [negative_ofRatio, negative_powerOfTen, Bool.bne_false, magnitude_ofRatio_one _ hdigits,
    magnitude_powerOfTen hk] at hproduct
  rw [multiplyBy, if_pos (show k ≤ greatestPower by unfold greatestPower; omega)]
  exact hproduct

theorem isRounded_divideBy (negative : Bool) (hdigits : digits ≤ 2 ^ 53) (hk : k ≤ 22) :
    IsRounded negative (digits / 10 ^ k) ((ofRatio negative digits 1).divideBy k) := by
  have hpos : 0 < units (powerOfTen k).rank := by
    rw [units_powerOfTen hk]
    exact Nat.mul_pos (Nat.pow_pos (by decide)) unitsPerOne_pos
  have hquotient := isRounded_div (ofRatio negative digits 1) hpos
  rw [negative_ofRatio, negative_powerOfTen, Bool.bne_false, magnitude_ofRatio_one _ hdigits,
    magnitude_powerOfTen hk] at hquotient
  have htimes : (k - 1) / greatestPower = 0 := by
    unfold greatestPower
    omega
  rw [divideBy, htimes, Nat.zero_mul, Nat.sub_zero]
  exact hquotient

/-- **Few digits with a small power of ten are rounded once**, to the number nearest to the
decimal. -/
theorem isRounded_ofScaled (negative : Bool) (hdigits : digits ≤ 2 ^ 53) (hlow : -22 ≤ exponent)
    (hhigh : exponent ≤ 22) :
    IsRounded negative (digits * 10 ^ exponent) (ofScaled negative digits exponent) := by
  unfold ofScaled
  split
  · next h =>
    have hexp : exponent = exponent.toNat := by omega
    have hrounded := isRounded_multiplyBy negative hdigits (k := exponent.toNat) (by omega)
    rwa [← zpow_natCast, ← hexp] at hrounded
  · next h =>
    have hexp : exponent = -((-exponent).toNat : Int) := by omega
    have hrounded := isRounded_divideBy negative hdigits (k := (-exponent).toNat) (by omega)
    rwa [div_eq_mul_inv, ← zpow_natCast, ← zpow_neg, ← hexp] at hrounded

/-- With more digits the roundings may add up: the digits are rounded before they are divided. -/
example : ofScaled false 90071992547409910 (-1) ≠ ofDecimal false 90071992547409910 (-1) := by
  decide +kernel

end Conditions.Binary64
