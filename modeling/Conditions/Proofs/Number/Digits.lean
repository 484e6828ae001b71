import Conditions.Number.Shortest
import Mathlib.Algebra.Group.Nat.Defs
import Mathlib.Data.List.DropRight

/-!
# Decimal digits

Zeros before the digits of a number do not count, and each zero after them is a factor of ten. So
digits without the zeros at their end (`Digits.ofScaled`) stand for the number with the zeros moved
to the power of ten (`Digits.eq_mul_pow_of_ofScaled`).
-/

namespace Conditions

/-! ### What digits stand for -/

theorem decimalValue_eq (ds : List Char) : decimalValue ds = Nat.ofDigitChars 10 ds 0 :=
  Nat.ofDigitChars_eq_foldl.symm

theorem decimalValue_append (ds es : List Char) :
    decimalValue (ds ++ es) = decimalValue ds * 10 ^ es.length + decimalValue es := by
  simp only [decimalValue_eq, Nat.ofDigitChars_append]
  rw [Nat.ofDigitChars_eq_ofDigitChars_zero, Nat.mul_comm]

theorem decimalValue_replicate_zero (k : Nat) : decimalValue (List.replicate k '0') = 0 := by
  rw [decimalValue_eq, Nat.ofDigitChars_replicate_zero, Nat.mul_zero]

theorem decimalValue_zeros_append (k : Nat) (ds : List Char) :
    decimalValue (List.replicate k '0' ++ ds) = decimalValue ds := by
  rw [decimalValue_append, decimalValue_replicate_zero, Nat.zero_mul, Nat.zero_add]

theorem decimalValue_append_zeros (ds : List Char) (k : Nat) :
    decimalValue (ds ++ List.replicate k '0') = decimalValue ds * 10 ^ k := by
  rw [decimalValue_append, decimalValue_replicate_zero, Nat.add_zero, List.length_replicate]

theorem decimalValue_toDigits (n : Nat) : decimalValue (Nat.toDigits 10 n) = n := by
  rw [decimalValue_eq, Nat.ofDigitChars_ten_toDigits]

/-! ### The digits of a natural number -/

theorem isDigit_of_mem_toDigits {n : Nat} {c : Char} (h : c ∈ Nat.toDigits 10 n) :
    c.isDigit = true :=
  Nat.isDigit_of_mem_toDigits (by decide) (by decide) h

/-- Only zero begins with a zero. -/
theorem head?_toDigits_ne_zero {n : Nat} (hn : n ≠ 0) :
    (Nat.toDigits 10 n).head? ≠ some '0' := by
  induction n using Nat.strongRecOn with
  | ind n ih =>
    rw [Nat.toDigits_eq_if (by decide)]
    split
    · intro h
      exact hn (Nat.digitChar_eq_zero.mp (Option.some.inj h))
    · rw [List.head?_append_of_ne_nil _ Nat.toDigits_ne_nil]
      exact ih (n / 10) (by omega) (by omega)

namespace Digits

variable {n : Nat} {exponent : Int}

/-- Digits are scaled down by what is dropped of them. -/
theorem toDigits_eq (n : Nat) (exponent : Int) :
    ∃ zeros : Nat, Nat.toDigits 10 n = (ofScaled n exponent).digits ++ List.replicate zeros '0' ∧
      (ofScaled n exponent).point - (ofScaled n exponent).digits.length = exponent + zeros := by
  obtain ⟨dropped, hdropped⟩ :
      ∃ dropped, dropped = (Nat.toDigits 10 n).rtakeWhile (· = '0') := ⟨_, rfl⟩
  have hsplit : Nat.toDigits 10 n = (ofScaled n exponent).digits ++ dropped := by
    rw [hdropped]
    exact List.rdropWhile_append_rtakeWhile.symm
  have hzeros : dropped = List.replicate dropped.length '0' := by
    refine List.eq_replicate_iff.mpr ⟨rfl, fun c hc => ?_⟩
    rw [hdropped, List.rtakeWhile, List.mem_reverse] at hc
    simpa using List.mem_takeWhile_imp hc
  have hlength := congrArg List.length hsplit
  have hpoint : (ofScaled n exponent).point = (Nat.toDigits 10 n).length + exponent := rfl
  rw [List.length_append] at hlength
  refine ⟨dropped.length, by rw [← hzeros]; exact hsplit, ?_⟩
  omega

/-- The digits that are kept, with the zeros that are dropped as a power of ten. -/
theorem eq_mul_pow_of_ofScaled (n : Nat) (exponent : Int) :
    ∃ zeros : Nat, n = decimalValue (ofScaled n exponent).digits * 10 ^ zeros ∧
      (ofScaled n exponent).point - (ofScaled n exponent).digits.length = exponent + zeros := by
  obtain ⟨zeros, hdigits, hpoint⟩ := toDigits_eq n exponent
  refine ⟨zeros, ?_, hpoint⟩
  rw [← decimalValue_append_zeros, ← hdigits, decimalValue_toDigits]

/-- Some digits, which begin with a zero only if that is all of them, before the point. -/
structure Proper (d : Digits) : Prop where
  /-- There is a digit. -/
  ne_nil : d.digits ≠ []
  /-- There is nothing else. -/
  isDigit : ∀ c ∈ d.digits, c.isDigit = true
  /-- Only zero begins with a zero. -/
  eq_zero_of_head : d.digits.head? = some '0' → d = ⟨['0'], 1⟩

theorem proper_zero : Proper ⟨['0'], 1⟩ :=
  ⟨List.cons_ne_nil _ _, List.forall_mem_singleton.mpr rfl, fun _ => rfl⟩

theorem proper_ofScaled (hn : n ≠ 0) (exponent : Int) : (ofScaled n exponent).Proper := by
  obtain ⟨zeros, hdigits, -⟩ := toDigits_eq n exponent
  have hne : (ofScaled n exponent).digits ≠ [] := by
    intro h
    rw [h, List.nil_append] at hdigits
    have hvalue := decimalValue_toDigits n
    rw [hdigits, decimalValue_replicate_zero] at hvalue
    exact hn hvalue.symm
  refine ⟨hne, fun c hc => ?_, fun h => ?_⟩
  · refine isDigit_of_mem_toDigits (n := n) ?_
    rw [hdigits]
    exact List.mem_append_left _ hc
  · have hhead := head?_toDigits_ne_zero hn
    rw [hdigits, List.head?_append_of_ne_nil _ hne] at hhead
    exact absurd h hhead

end Digits

end Conditions
