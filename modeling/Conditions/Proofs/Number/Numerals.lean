import Conditions.Proofs.Number.Decimals
import Conditions.Proofs.Number.Radix

/-!
# Numerals in text

A text is a number in an ordering exactly if, without the blanks around it, it is empty or a numeral
(`IsNumeral`): a decimal, an infinity, or digits of a radix after their mark. A decimal stands for
the number nearest to it (`textNumber_meaning`).

Digits of a radix are rounded as they come, and so not always to the nearest number
(`textNumber_radix`, `textNumber_lost`).
-/

namespace Conditions

/-- The radix that a letter after a zero gives. -/
def radixOf? : Char → Option Nat
  | 'x' | 'X' => some 16
  | 'o' | 'O' => some 8
  | 'b' | 'B' => some 2
  | _ => none

/-- A text is a numeral. -/
inductive IsNumeral : List Char → Prop where
  /-- Infinity, with or without a plus sign. -/
  | infinity {s : List Char} (eq : s = "Infinity".toList ∨ s = "+Infinity".toList) : IsNumeral s
  /-- Infinity with a minus sign. -/
  | negativeInfinity : IsNumeral "-Infinity".toList
  /-- A zero, the letter of a radix, and digits of the radix. -/
  | radix {letter : Char} {radix : Nat} {ds : List Char} {values : List Nat}
    (letter_eq : radixOf? letter = some radix) (ne_nil : ds ≠ [])
    (digits : HaveValues radix ds values) : IsNumeral ('0' :: letter :: ds)
  /-- A decimal. -/
  | decimal {s : List Char} {d : Decimal} (text : Decimal.IsText s d) : IsNumeral s

variable {s ds core : List Char} {letter : Char} {radix : Nat} {d : Decimal}

/-! ### Texts without blanks around them -/

theorem numeralNumber_radix (h : radixOf? letter = some radix) :
    numeralNumber ('0' :: letter :: ds) = radixNumber radix ds := by
  unfold radixOf? at h
  split at h <;> cases h <;> rfl

/-- A text without the mark of a radix is an infinity or a decimal. -/
theorem numeralNumber_of_no_radix (hne : s ≠ [])
    (h : ∀ letter ds, s = '0' :: letter :: ds → radixOf? letter = none) :
    numeralNumber s =
      if s = "Infinity".toList ∨ s = "+Infinity".toList then .infinity false
      else if s = "-Infinity".toList then .infinity true
      else match Decimal.parse? s with
        | some d => d.toBinary64
        | none => .nan := by
  unfold numeralNumber
  split
  · exact absurd rfl hne
  · exact absurd (h 'x' _ rfl) (by decide)
  · exact absurd (h 'X' _ rfl) (by decide)
  · exact absurd (h 'o' _ rfl) (by decide)
  · exact absurd (h 'O' _ rfl) (by decide)
  · exact absurd (h 'b' _ rfl) (by decide)
  · exact absurd (h 'B' _ rfl) (by decide)
  · rfl

/-- No decimal begins with the mark of a radix. -/
theorem Decimal.parse?_radix (h : radixOf? letter = some radix) :
    Decimal.parse? ('0' :: letter :: ds) = none := by
  unfold radixOf? at h
  split at h <;> cases h <;> rfl

theorem numeralNumber_decimal (h : Decimal.IsText s d) : numeralNumber s = d.toBinary64 := by
  have hparse := Decimal.parse?_eq_some_iff.mpr h
  have hne {t : List Char} (ht : Decimal.parse? t = none) : s ≠ t := by
    rintro rfl
    rw [hparse] at ht
    cases ht
  have hradix : ∀ letter ds, s = '0' :: letter :: ds → radixOf? letter = none := by
    rintro letter ds rfl
    cases hletter : radixOf? letter with
    | none => rfl
    | some radix => exact absurd rfl (hne (Decimal.parse?_radix hletter))
  rw [numeralNumber_of_no_radix (hne rfl) hradix, if_neg, if_neg (hne rfl), hparse]
  exact not_or.mpr ⟨hne rfl, hne rfl⟩

/-- A text is a number exactly if it is empty or a numeral. -/
theorem isNaN_numeralNumber_iff : (numeralNumber s).isNaN = false ↔ s = [] ∨ IsNumeral s := by
  constructor
  · intro h
    by_cases hnil : s = []
    · exact .inl hnil
    by_cases hradix : ∃ letter ds radix, s = '0' :: letter :: ds ∧ radixOf? letter = some radix
    · obtain ⟨letter, ds, radix, rfl, hletter⟩ := hradix
      rw [numeralNumber_radix hletter, isNaN_radixNumber_iff] at h
      obtain ⟨hne, values, hvalues⟩ := h
      exact .inr (.radix hletter hne hvalues)
    · rw [numeralNumber_of_no_radix hnil fun letter ds heq =>
        Option.eq_none_iff_forall_ne_some.mpr fun radix hletter =>
          hradix ⟨letter, ds, radix, heq, hletter⟩] at h
      split at h
      · next hinfinity => exact .inr (.infinity hinfinity)
      · split at h
        · next hinfinity => exact .inr (hinfinity ▸ .negativeInfinity)
        · split at h
          · next d hd => exact .inr (.decimal (Decimal.parse?_eq_some_iff.mp hd))
          · exact absurd h (by decide)
  · rintro (rfl | hinfinity | - | ⟨hletter, hne, hvalues⟩ | htext)
    · decide
    · rcases hinfinity with rfl | rfl <;> decide
    · decide
    · rw [numeralNumber_radix hletter]
      exact isNaN_radixNumber_iff.mpr ⟨hne, _, hvalues⟩
    · rw [numeralNumber_decimal htext]
      exact (Decimal.isRounded_toBinary64 _).isNaN

/-! ### Texts with blanks around them -/

theorem textNumber_eq {s : String} (h : IsTrimmed isNumericBlank s.toList core) :
    textNumber s = numeralNumber core := by
  rw [textNumber, trimOf_eq h]

/-- **What numbers texts stand for.** Without the blanks around it, a text is a number if it is
empty or a numeral, and only then. The empty text is zero, the infinities are the infinities, and a
decimal is rounded to the nearest number and keeps its sign. Blanks around the text do not count. -/
theorem textNumber_meaning (s : String) :
    (∃! core, IsTrimmed isNumericBlank s.toList core) ∧
    (∀ core, IsTrimmed isNumericBlank s.toList core →
      ((textNumber s).isNaN = false ↔ core = [] ∨ IsNumeral core) ∧
      (core = [] → textNumber s = .zero) ∧
      (core = "Infinity".toList ∨ core = "+Infinity".toList → textNumber s = .infinity false) ∧
      (core = "-Infinity".toList → textNumber s = .infinity true) ∧
      ∀ d, Decimal.IsText core d → Binary64.IsRounded d.negative d.magnitude (textNumber s)) ∧
    ∀ before after, (∀ c ∈ before, isNumericBlank c = true) →
      (∀ c ∈ after, isNumericBlank c = true) →
      textNumber (String.ofList (before ++ (s.toList ++ after))) = textNumber s := by
  refine ⟨⟨_, isTrimmed_trimOf _ _, fun core h => (trimOf_eq h).symm⟩, fun core h => ?_,
    fun before after hbefore hafter => ?_⟩
  · rw [textNumber_eq h]
    refine ⟨isNaN_numeralNumber_iff, ?_, ?_, ?_, fun d hd => ?_⟩
    · rintro rfl
      rfl
    · rintro (rfl | rfl) <;> rfl
    · rintro rfl
      rfl
    · rw [numeralNumber_decimal hd]
      exact Decimal.isRounded_toBinary64 d
  · rw [textNumber, textNumber, String.toList_ofList, trimOf_append hbefore hafter]

/-- A decimal between blanks, one of them the byte order mark. -/
theorem textNumber_meaning_spaced :
    IsTrimmed isNumericBlank "\ufeff -1.5e1\n".toList "-1.5e1".toList ∧
      Decimal.IsText "-1.5e1".toList ⟨true, 15, 0⟩ ∧
      Binary64.IsRounded true 15 (textNumber "\ufeff -1.5e1\n") := by
  have htrim : IsTrimmed isNumericBlank "\ufeff -1.5e1\n".toList "-1.5e1".toList :=
    isTrimmed_iff.mpr (by decide)
  have htext : Decimal.IsText "-1.5e1".toList ⟨true, 15, 0⟩ :=
    Decimal.parse?_eq_some_iff.mp (by decide)
  obtain ⟨-, -, -, -, hdecimal⟩ := (textNumber_meaning "\ufeff -1.5e1\n").2.1 _ htrim
  have hrounded := hdecimal _ htext
  rw [Decimal.magnitude, zpow_zero, mul_one] at hrounded
  exact ⟨htrim, htext, hrounded⟩

/-! ### Digits of a radix -/

/-- Digits are letters or digits of ASCII. -/
theorem toNat_of_digitValue? {c : Char} {n : Nat} (h : digitValue? c = some n) :
    0x30 ≤ c.toNat ∧ c.toNat ≤ 0x7a := by
  have hclass : c.isDigit = true ∨ c.isLower = true ∨ c.isUpper = true := by
    unfold digitValue? at h
    split at h
    · next hdigit => exact .inl hdigit
    · split at h
      · next hlower => exact .inr (.inl hlower)
      · split at h
        · next hupper => exact .inr (.inr hupper)
        · cases h
  have hbounds {low high : Char} (hlow : low.val ≤ c.val) (hhigh : c.val ≤ high.val) :
      low.toNat ≤ c.toNat ∧ c.toNat ≤ high.toNat :=
    ⟨UInt32.le_iff_toNat_le.mp hlow, UInt32.le_iff_toNat_le.mp hhigh⟩
  rcases hclass with hdigit | hlower | hupper
  · obtain ⟨hlow, hhigh⟩ := Char.isDigit_iff_toNat.mp hdigit
    exact ⟨hlow, Nat.le_trans hhigh (by decide)⟩
  · obtain ⟨hlow, hhigh⟩ := Bool.and_eq_true_iff.mp hlower
    obtain ⟨hlow, hhigh⟩ := hbounds (of_decide_eq_true hlow) (of_decide_eq_true hhigh)
    exact ⟨Nat.le_trans (by decide) hlow, hhigh⟩
  · obtain ⟨hlow, hhigh⟩ := of_decide_eq_true hupper
    obtain ⟨hlow, hhigh⟩ := hbounds hlow hhigh
    exact ⟨Nat.le_trans (by decide) hlow, Nat.le_trans hhigh (by decide)⟩

theorem isNumericBlank_of_digitValue? {c : Char} {n : Nat} (h : digitValue? c = some n) :
    isNumericBlank c = false := by
  obtain ⟨hlow, hhigh⟩ := toNat_of_digitValue? h
  rw [Bool.eq_false_iff]
  simp only [isNumericBlank, isBlank, ne_eq, Bool.or_eq_true, Bool.and_eq_true, beq_iff_eq,
    bne_iff_ne, decide_eq_true_eq]
  omega

/-- A mark and digits have no blanks around them. -/
theorem isTrimmed_radix {values : List Nat} (hne : ds ≠ [])
    (hvalues : HaveValues radix ds values) :
    IsTrimmed isNumericBlank ('0' :: letter :: ds) ('0' :: letter :: ds) := by
  refine ⟨⟨[], [], (List.append_nil _).symm, fun _ h => absurd h List.not_mem_nil,
    fun _ h => absurd h List.not_mem_nil⟩, fun c hc => ?_, fun c hc => ?_⟩
  · cases hc
    rfl
  · have hmem : c ∈ ds := by
      rw [List.getLast?_cons_of_ne_nil (List.cons_ne_nil _ _),
        List.getLast?_cons_of_ne_nil hne] at hc
      exact List.mem_of_getLast? hc
    obtain ⟨n, hn⟩ := hvalues.exists_value hmem
    exact isNumericBlank_of_digitValue? hn

theorem exists_pow_of_radixOf? (h : radixOf? letter = some radix) :
    ∃ k, 1 ≤ k ∧ radix = 2 ^ k := by
  unfold radixOf? at h
  split at h <;> cases h
  · exact ⟨4, by decide, rfl⟩
  · exact ⟨4, by decide, rfl⟩
  · exact ⟨3, by decide, rfl⟩
  · exact ⟨3, by decide, rfl⟩
  · exact ⟨1, by decide, rfl⟩
  · exact ⟨1, by decide, rfl⟩

/-- **What digits of a radix stand for**: the nearest number, unless digits are lost and the number
is finite; then the number just below the nearest one. -/
theorem textNumber_radix {values : List Nat} (hletter : radixOf? letter = some radix)
    (hne : ds ≠ []) (hvalues : HaveValues radix ds values) :
    (Binary64.IsRounded false (wholeNumber radix values)
        (textNumber (String.ofList ('0' :: letter :: ds))) ↔
      (IsLost radix values → 2 ^ 1024 ≤ wholeNumber radix values)) ∧
    (IsLost radix values → wholeNumber radix values < 2 ^ 1024 →
      Binary64.IsRounded false (wholeNumber radix values)
        (.ofRank false ((textNumber (String.ofList ('0' :: letter :: ds))).rank + 1))) := by
  have htrim : IsTrimmed isNumericBlank (String.ofList ('0' :: letter :: ds)).toList
      ('0' :: letter :: ds) := by
    rw [String.toList_ofList]
    exact isTrimmed_radix hne hvalues
  obtain ⟨k, hk, rfl⟩ := exists_pow_of_radixOf? hletter
  rw [textNumber_eq htrim, numeralNumber_radix hletter, radixNumber_eq hne hvalues]
  exact Binary64.isRounded_roundDigits hk hvalues.lt

/-- Fifteen hexadecimal digits that denote a midpoint over an even neighbour, and a one. -/
def lostDigits : List Nat := [1, 0, 0, 0, 0, 0, 0, 0, 0, 0, 0, 0, 0, 0, 8, 1]

theorem isLost_lostDigits : IsLost 16 lostDigits :=
  ⟨lostDigits.dropLast, [1], rfl, ⟨2 ^ 51, 3, by decide +kernel, by decide, by decide⟩, 1,
    List.mem_singleton_self 1, by decide⟩

theorem haveValues_lostDigits : HaveValues 16 "1000000000000081".toList lostDigits :=
  mapM_digitValue?_eq_some_iff.mp (by decide)

/-- Digits of radix sixteen need not stand for the nearest number. -/
theorem textNumber_lost : ¬ Binary64.IsRounded false (wholeNumber 16 lostDigits)
    (textNumber "0x1000000000000081") := by
  intro h
  have heq := h.unique (Binary64.isRounded_ofNat _)
  exact absurd heq (by decide +kernel)

theorem textNumber_radix_lost :
    radixOf? 'x' = some 16 ∧ "1000000000000081".toList ≠ [] ∧
      HaveValues 16 "1000000000000081".toList lostDigits ∧ IsLost 16 lostDigits ∧
      Binary64.IsRounded false (wholeNumber 16 lostDigits)
        (.ofRank false ((textNumber "0x1000000000000081").rank + 1)) :=
  ⟨rfl, by decide, haveValues_lostDigits, isLost_lostDigits,
    (textNumber_radix rfl (by decide) haveValues_lostDigits).2 isLost_lostDigits
      (by decide +kernel)⟩

end Conditions
