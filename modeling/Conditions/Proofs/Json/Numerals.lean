import Conditions.Json.Leaf
import Conditions.Proofs.Number.Decimals
import Conditions.Proofs.Number.Scaling
import Conditions.Proofs.Results

/-!
# The grammar of numbers

A number of a document is a sign, digits before and after a point, and a power of ten. The grammar
is given apart from the reader (`Numeral.IsText`), and a numeral is read from each of its texts,
whatever follows that does not go on with it (`readNumeral_text`), and from nothing else
(`exists_of_readNumeral`).

A numeral that is kept as a whole number is rounded once, when it is asked for, to the number that
is nearest to its magnitude. Of other numerals this is true only of some (`RoundsToNearest`), those
with few digits and a small power of ten among them (`IsShort.isRounded`).
-/

namespace Conditions.Json

/-! ### Numerals -/

/-- What follows a number does not go on with it. -/
def EndsNumber (rest : List Char) : Prop :=
  ∀ c, rest.head? = some c → c.isDigit = false ∧ c ≠ '.' ∧ c ≠ 'e' ∧ c ≠ 'E'

theorem endsNumber_nil : EndsNumber [] := fun _ h => by cases h

theorem endsNumber_cons {c : Char} {rest : List Char}
    (h : c.isDigit = false ∧ c ≠ '.' ∧ c ≠ 'e' ∧ c ≠ 'E') : EndsNumber (c :: rest) := by
  rintro _ ⟨⟩
  exact h

namespace Numeral

/-- Some digits. -/
def AreDigits (ds : List Char) : Prop := ds ≠ [] ∧ ∀ c ∈ ds, c.isDigit = true

/-- The parts are those of a numeral. -/
structure Proper (n : Numeral) : Prop where
  /-- Digits stand before the point. -/
  whole : AreDigits n.whole
  /-- They begin with a zero only if that is all of them. -/
  eq_zero_of_head : n.whole.head? = some '0' → n.whole = ['0']
  /-- Digits stand after the point, if there is one. -/
  fraction : ∀ ds, n.fraction = some ds → AreDigits ds

/-- The sign of a numeral. -/
def signText (negative : Bool) : List Char := if negative then ['-'] else []

/-- The point and the digits after it. -/
def fractionText : Option (List Char) → List Char
  | none => []
  | some ds => '.' :: ds

/-- A text is the power of ten of a numeral, which may have none. -/
inductive IsExponent : List Char → Option Int → Prop where
  /-- No power of ten. -/
  | none : IsExponent [] none
  /-- A letter, an optional sign and digits. -/
  | power {letter : Char} {s : List Char} {e : Int} (h : Decimal.IsPower (letter :: s) e) :
    IsExponent (letter :: s) (some e)

/-- A text is a numeral: a sign, digits before and after a point, and a power of ten. -/
inductive IsText (n : Numeral) : List Char → Prop where
  /-- The parts in order. -/
  | parts {power : List Char} (proper : n.Proper) (power_eq : IsExponent power n.exponent) :
    IsText n (signText n.negative ++ (n.whole ++ (fractionText n.fraction ++ power)))

/-- The magnitude that a numeral denotes. -/
def magnitude (n : Numeral) : ℚ :=
  Nat.ofDigitChars 10 (n.whole ++ n.fraction.getD []) 0 *
    10 ^ (n.exponent.getD 0 - (n.fraction.getD []).length)

/-! ### Written numerals -/

/-- The letter of a power of ten, and the power. -/
def exponentText : Option Int → List Char
  | none => []
  | some e => 'e' :: (toString e).toList

/-- The text that is written for a numeral. -/
def text (n : Numeral) : List Char :=
  signText n.negative ++ (n.whole ++ (fractionText n.fraction ++ exponentText n.exponent))

end Numeral

open Numeral

variable {ds s power rest : List Char}

theorem areDigits_toDigits (n : Nat) : AreDigits (Nat.toDigits 10 n) :=
  ⟨Nat.toDigits_ne_nil, fun _ => isDigit_of_mem_toDigits⟩

/-- The text of a whole number. -/
theorem toList_toString : (i : Int) →
    (toString i).toList = signText (decide (i < 0)) ++ Nat.toDigits 10 i.natAbs
  | .ofNat n => by
    have hn : ¬ Int.ofNat n < 0 := Int.not_lt.mpr (Int.natCast_nonneg n)
    rw [decide_eq_false hn]
    exact Nat.toList_repr
  | .negSucc n => by
    rw [decide_eq_true (Int.negSucc_lt_zero n)]
    show ("-" ++ (n + 1).repr).toList = _
    rw [String.toList_append, Nat.toList_repr]
    rfl

theorem isSign_signText (negative : Bool) : Decimal.IsSign (signText negative) negative := by
  cases negative with
  | false => exact .none
  | true => exact .minus

theorem isExponent_exponentText (exponent : Option Int) :
    IsExponent (exponentText exponent) exponent := by
  cases exponent with
  | none => exact .none
  | some e =>
    obtain ⟨hne, hdigits⟩ := areDigits_toDigits e.natAbs
    have hpower := Decimal.IsPower.power (.inl rfl : 'e' = 'e' ∨ 'e' = 'E')
      (isSign_signText (decide (e < 0))) hdigits hne
    have hvalue : (if decide (e < 0) = true then -(Nat.ofDigitChars 10 (Nat.toDigits 10 e.natAbs) 0
        : Int) else Nat.ofDigitChars 10 (Nat.toDigits 10 e.natAbs) 0) = e := by
      rw [← decimalValue_eq, decimalValue_toDigits]
      split
      · next h => exact (by have := of_decide_eq_true h; omega)
      · next h => exact (by have := of_decide_eq_false (Bool.eq_false_iff.mpr h); omega)
    rw [hvalue, ← toList_toString] at hpower
    exact .power hpower

/-- What is written for a numeral is a text of it. -/
theorem Numeral.Proper.isText_text {n : Numeral} (hn : n.Proper) : n.IsText n.text :=
  .parts hn (isExponent_exponentText n.exponent)

/-! ### Reading numerals -/

theorem readDigits_append (hds : AreDigits ds)
    (hrest : ∀ c, rest.head? = some c → c.isDigit = false) :
    readDigits (ds ++ rest) = .ok (ds, rest) := by
  have htake := takeWhile_append_of_stop hds.2 hrest
  have hdrop := dropWhile_append_of_stop hds.2 hrest
  obtain ⟨d, ds, rfl⟩ := List.exists_cons_of_ne_nil hds.1
  rw [readDigits, htake, hdrop]

theorem readWhole_append (hds : AreDigits ds) (hzero : ds.head? = some '0' → ds = ['0'])
    (hrest : ∀ c, rest.head? = some c → c.isDigit = false) :
    readWhole (ds ++ rest) = .ok (ds, rest) := by
  unfold readWhole
  rw [readDigits_append hds hrest, ok_bind]
  dsimp only
  split
  · cases hzero rfl
  · rfl

theorem readFraction_append {fraction : Option (List Char)}
    (hfraction : ∀ ds, fraction = some ds → AreDigits ds)
    (hrest : ∀ c, rest.head? = some c → c.isDigit = false ∧ c ≠ '.') :
    readFraction (fractionText fraction ++ rest) = .ok (fraction, rest) := by
  cases fraction with
  | none =>
    show readFraction rest = _
    unfold readFraction
    split
    · exact absurd rfl (hrest '.' rfl).2
    · rfl
  | some ds =>
    show readFraction ('.' :: (ds ++ rest)) = _
    rw [readFraction, readDigits_append (hfraction ds rfl) fun c hc => (hrest c hc).1]
    rfl

theorem readExponent_append {exponent : Option Int} (h : IsExponent power exponent)
    (hrest : EndsNumber rest) : readExponent (power ++ rest) = .ok (exponent, rest) := by
  cases h with
  | none =>
    cases rest with
    | nil => rfl
    | cons c rest =>
      obtain ⟨-, -, he, hE⟩ := hrest c rfl
      exact if_neg (not_or.mpr ⟨he, hE⟩)
  | power h =>
    cases h with
    | power hletter hsign hdigits hne =>
      next letter sign ds negative =>
      have hsplit : splitSign (sign ++ (ds ++ rest)) = (negative, ds ++ rest) :=
        Decimal.splitSign_append hsign fun c => Decimal.ne_sign_of_areDigits hdigits hne
      rw [List.cons_append, List.append_assoc, readExponent, if_pos hletter, hsplit]
      dsimp only
      rw [readDigits_append ⟨hne, hdigits⟩ fun c hc => (hrest c hc).1, ok_bind, decimalValue_eq]

theorem head?_exponent {exponent : Option Int} (h : IsExponent power exponent)
    (hrest : EndsNumber rest) :
    ∀ c, (power ++ rest).head? = some c → c.isDigit = false ∧ c ≠ '.' := by
  cases h with
  | none => exact fun c hc => ⟨(hrest c hc).1, (hrest c hc).2.1⟩
  | power h => exact fun c hc => h.head hc

theorem head?_fractionText (fraction : Option (List Char))
    (hrest : ∀ c, rest.head? = some c → c.isDigit = false) :
    ∀ c, (fractionText fraction ++ rest).head? = some c → c.isDigit = false := by
  cases fraction with
  | none => exact hrest
  | some ds =>
    rintro _ ⟨⟩
    decide

/-- The parts of a number after its sign, and what follows it. -/
def readUnsigned (negative : Bool) (s : List Char) : Except Fault (Numeral × List Char) := do
  let (whole, s) ← readWhole s
  let (fraction, s) ← readFraction s
  let (exponent, s) ← readExponent s
  .ok (⟨negative, whole, fraction, exponent⟩, s)

theorem readNumeral_minus (s : List Char) : readNumeral ('-' :: s) = readUnsigned true s := rfl

theorem readNumeral_of_isDigit {c : Char} (hc : c.isDigit = true) (s : List Char) :
    readNumeral (c :: s) = readUnsigned false (c :: s) := by
  simp only [readNumeral]
  split
  · next h =>
    cases h
    cases hc
  · rfl

theorem readUnsigned_append {n : Numeral} (hn : n.Proper) (hpower : IsExponent power n.exponent)
    (hrest : EndsNumber rest) :
    readUnsigned n.negative (n.whole ++ (fractionText n.fraction ++ (power ++ rest))) =
      .ok (n, rest) := by
  have hexponent := head?_exponent hpower hrest
  have hfraction := head?_fractionText n.fraction fun c hc => (hexponent c hc).1
  unfold readUnsigned
  rw [readWhole_append hn.whole hn.eq_zero_of_head hfraction, ok_bind]
  dsimp only
  rw [readFraction_append hn.fraction hexponent, ok_bind]
  dsimp only
  rw [readExponent_append hpower hrest, ok_bind]

/-- **A numeral is read from each of its texts.** -/
theorem readNumeral_text {n : Numeral} (h : n.IsText s) (hrest : EndsNumber rest) :
    readNumeral (s ++ rest) = .ok (n, rest) := by
  obtain ⟨hn, hpower⟩ := h
  have hunsigned := readUnsigned_append hn hpower hrest
  obtain ⟨negative, whole, fraction, exponent⟩ := n
  simp only [List.append_assoc]
  cases negative with
  | true => exact (readNumeral_minus _).trans hunsigned
  | false =>
    obtain ⟨hne, hdigits⟩ := hn.whole
    obtain ⟨d, ds, rfl⟩ := List.exists_cons_of_ne_nil hne
    rw [← hunsigned]
    exact readNumeral_of_isDigit (hdigits d List.mem_cons_self) _

/-- A number begins with a sign or a digit. -/
theorem Numeral.IsText.head {n : Numeral} (h : n.IsText s) :
    ∃ c t, s = c :: t ∧ (c = '-' ∨ c.isDigit = true) := by
  obtain ⟨hn, -⟩ := h
  obtain ⟨hne, hdigits⟩ := hn.whole
  cases hsign : n.negative with
  | true => exact ⟨_, _, rfl, .inl rfl⟩
  | false =>
    obtain ⟨d, ds, hwhole⟩ := List.exists_cons_of_ne_nil hne
    rw [hwhole] at hdigits ⊢
    exact ⟨_, _, rfl, .inr (hdigits d List.mem_cons_self)⟩

/-! ### What is read is a numeral -/

theorem areDigits_of_readDigits (h : readDigits s = .ok (ds, rest)) :
    AreDigits ds ∧ s = ds ++ rest := by
  unfold readDigits at h
  split at h
  · cases h
  · next d ds' htake =>
    cases h
    rw [← htake]
    refine ⟨⟨?_, Decimal.areDigits_takeWhile s⟩, List.takeWhile_append_dropWhile.symm⟩
    rw [htake]
    exact List.cons_ne_nil _ _

theorem areDigits_of_readWhole (h : readWhole s = .ok (ds, rest)) :
    AreDigits ds ∧ (ds.head? = some '0' → ds = ['0']) ∧ s = ds ++ rest := by
  obtain ⟨⟨ds', rest'⟩, hread, hwhole⟩ := bind_eq_ok_iff.mp h
  obtain ⟨hdigits, hs⟩ := areDigits_of_readDigits hread
  dsimp only at hwhole
  split at hwhole
  · cases hwhole
  · next hzero =>
    cases hwhole
    refine ⟨hdigits, fun hhead => ?_, hs⟩
    obtain ⟨d, ds, rfl⟩ := List.exists_cons_of_ne_nil hdigits.1
    cases hhead
    cases ds with
    | nil => rfl
    | cons d ds => exact absurd rfl (hzero d ds)

theorem eq_of_readFraction {fraction : Option (List Char)}
    (h : readFraction s = .ok (fraction, rest)) :
    (∀ ds, fraction = some ds → AreDigits ds) ∧ s = fractionText fraction ++ rest := by
  unfold readFraction at h
  split at h
  · obtain ⟨⟨ds, rest'⟩, hread, hfraction⟩ := bind_eq_ok_iff.mp h
    obtain ⟨hdigits, rfl⟩ := areDigits_of_readDigits hread
    cases hfraction
    refine ⟨?_, rfl⟩
    rintro _ ⟨⟩
    exact hdigits
  · cases h
    exact ⟨nofun, rfl⟩

theorem exists_of_readExponent {exponent : Option Int}
    (h : readExponent s = .ok (exponent, rest)) :
    ∃ power, IsExponent power exponent ∧ s = power ++ rest := by
  unfold readExponent at h
  split at h
  · cases h
    exact ⟨[], .none, rfl⟩
  · next c s =>
    split at h
    · next hletter =>
      obtain ⟨⟨negative, s'⟩, hsplit⟩ : ∃ split, splitSign s = split := ⟨_, rfl⟩
      obtain ⟨sign, hsign, rfl⟩ := Decimal.exists_sign hsplit
      rw [hsplit] at h
      obtain ⟨⟨ds, rest'⟩, hread, hexponent⟩ := bind_eq_ok_iff.mp h
      obtain ⟨⟨hne, hdigits⟩, rfl⟩ := areDigits_of_readDigits hread
      cases hexponent
      rw [decimalValue_eq]
      exact ⟨_, .power (.power hletter hsign hdigits hne), by simp⟩
    · cases h
      exact ⟨[], .none, rfl⟩

theorem exists_of_readUnsigned {negative : Bool} {n : Numeral}
    (h : readUnsigned negative s = .ok (n, rest)) :
    n.negative = negative ∧ n.Proper ∧ ∃ power, IsExponent power n.exponent ∧
      s = n.whole ++ (fractionText n.fraction ++ (power ++ rest)) := by
  obtain ⟨⟨whole, s'⟩, hwhole, h⟩ := bind_eq_ok_iff.mp h
  obtain ⟨⟨fraction, s''⟩, hfraction, h⟩ := bind_eq_ok_iff.mp h
  obtain ⟨⟨exponent, s'''⟩, hexponent, h⟩ := bind_eq_ok_iff.mp h
  cases h
  obtain ⟨hdigits, hzero, rfl⟩ := areDigits_of_readWhole hwhole
  obtain ⟨hdigits', rfl⟩ := eq_of_readFraction hfraction
  obtain ⟨power, hpower, rfl⟩ := exists_of_readExponent hexponent
  exact ⟨rfl, ⟨hdigits, hzero, hdigits'⟩, power, hpower, rfl⟩

/-- **What is read as a numeral is a text of it.** -/
theorem exists_of_readNumeral {n : Numeral} (h : readNumeral s = .ok (n, rest)) :
    ∃ text, n.IsText text ∧ s = text ++ rest := by
  have htext {negative : Bool} {s : List Char} (h : readUnsigned negative s = .ok (n, rest)) :
      ∃ text, n.IsText text ∧ signText negative ++ s = text ++ rest := by
    obtain ⟨rfl, hproper, power, hpower, rfl⟩ := exists_of_readUnsigned h
    exact ⟨_, .parts hproper hpower, by simp⟩
  unfold readNumeral at h
  dsimp only at h
  split at h
  · exact htext h
  · exact htext h

/-- A text is that of no more than one numeral. -/
theorem Numeral.IsText.unique {n m : Numeral} (hn : n.IsText s) (hm : m.IsText s) : n = m := by
  have hread := readNumeral_text hn endsNumber_nil
  rw [readNumeral_text hm endsNumber_nil] at hread
  exact (congrArg Prod.fst (Except.ok.inj hread)).symm

/-! ### What numerals denote -/

theorem le_ofDigitChars (m : Nat) (ds : List Char) : m ≤ Nat.ofDigitChars 10 ds m := by
  induction ds generalizing m with
  | nil => exact Nat.le_refl m
  | cons d ds ih =>
    rw [Nat.ofDigitChars_cons]
    exact Nat.le_trans (by omega) (ih _)

/-- Digits that 64 bits hold are all taken. -/
theorem takeDigits_eq {m : Nat} (h : Nat.ofDigitChars 10 ds m < 2 ^ 64) :
    takeDigits m ds = (Nat.ofDigitChars 10 ds m, []) := by
  induction ds generalizing m with
  | nil => rfl
  | cons d ds ih =>
    rw [Nat.ofDigitChars_cons] at h ⊢
    have hnext := Nat.lt_of_le_of_lt (le_ofDigitChars _ ds) h
    rw [takeDigits]
    exact (if_pos hnext).trans (ih h)

namespace Numeral

variable {n : Numeral}

/-- All digits of a numeral, as one whole number. -/
def digits (n : Numeral) : Nat := decimalValue (n.whole ++ n.fraction.getD [])

/-- The power of ten that goes with all digits of a numeral. -/
def scale (n : Numeral) : Int := n.exponent.getD 0 - (n.fraction.getD []).length

theorem magnitude_eq (n : Numeral) : n.magnitude = n.digits * 10 ^ n.scale := by
  rw [magnitude, ← decimalValue_eq]
  rfl

/-- The number nearest to a numeral. -/
def nearest (n : Numeral) : Binary64 := .ofDecimal n.negative n.digits n.scale

theorem isRounded_nearest (n : Numeral) :
    Binary64.IsRounded n.negative n.magnitude n.nearest := by
  rw [magnitude_eq]
  exact Binary64.isRounded_ofDecimal _ _ _

/-- No digit is dropped of those that 64 bits hold. -/
theorem scaled_eq (h : n.digits < 2 ^ 64) : n.scaled = (n.digits, n.scale) := by
  have hdigits : Nat.ofDigitChars 10 (n.fraction.getD []) (Nat.ofDigitChars 10 n.whole 0) =
      n.digits := by
    rw [digits, decimalValue_eq, Nat.ofDigitChars_append]
  have hwhole : takeDigits 0 n.whole = (Nat.ofDigitChars 10 n.whole 0, []) :=
    takeDigits_eq (Nat.lt_of_le_of_lt (hdigits ▸ le_ofDigitChars _ _) h)
  have hfraction : takeDigits (Nat.ofDigitChars 10 n.whole 0) (n.fraction.getD []) =
      (n.digits, []) := by
    rw [takeDigits_eq (hdigits.symm ▸ h), hdigits]
  simp only [scaled, hwhole, hfraction, scale, List.length_nil]
  congr 1
  omega

/-- A numeral is rounded to the number nearest to its magnitude, if it is not kept as a whole
number. -/
def RoundsToNearest (n : Numeral) : Prop :=
  n.toWhole? = none → Binary64.IsRounded n.negative n.magnitude n.toBinary64

/-- The digits make a whole number up to `2 ^ 53`, and their power of ten is up to 22 either way. -/
structure IsShort (n : Numeral) : Prop where
  /-- The digits have a number of their own. -/
  digits_le : n.digits ≤ 2 ^ 53
  /-- The power may divide. -/
  le_scale : -22 ≤ n.scale
  /-- The power may multiply. -/
  scale_le : n.scale ≤ 22

instance (n : Numeral) : Decidable n.IsShort :=
  decidable_of_iff (n.digits ≤ 2 ^ 53 ∧ -22 ≤ n.scale ∧ n.scale ≤ 22)
    ⟨fun ⟨h₁, h₂, h₃⟩ => ⟨h₁, h₂, h₃⟩, fun ⟨h₁, h₂, h₃⟩ => ⟨h₁, h₂, h₃⟩⟩

/-- **A short numeral is rounded to the nearest number.** -/
theorem IsShort.isRounded (h : n.IsShort) :
    Binary64.IsRounded n.negative n.magnitude n.toBinary64 := by
  rw [toBinary64, scaled_eq (Nat.lt_of_le_of_lt h.digits_le (by decide)), magnitude_eq]
  exact Binary64.isRounded_ofScaled n.negative h.digits_le h.le_scale h.scale_le

end Numeral

/-- The whole number that a numeral is kept as is the one that it denotes. -/
theorem isRounded_toWhole? {n : Numeral} {i : Int} (h : n.toWhole? = some i) :
    Binary64.IsRounded n.negative n.magnitude (.ofInt i) := by
  obtain ⟨negative, whole, fraction, exponent⟩ := n
  have hrounded := Binary64.isRounded_ofRatio (decide (i < 0)) i.natAbs Nat.one_pos
  rw [Nat.cast_one, div_one] at hrounded
  simp only [toWhole?, Bool.or_eq_true] at h
  split at h
  · cases h
  · next hparts =>
    obtain ⟨hfraction, hexponent⟩ := not_or.mp hparts
    obtain rfl := Option.not_isSome_iff_eq_none.mp hfraction
    obtain rfl := Option.not_isSome_iff_eq_none.mp hexponent
    have hmagnitude (negative : Bool) :
        magnitude ⟨negative, whole, none, none⟩ = decimalValue whole := by
      simp [magnitude, decimalValue_eq]
    rw [hmagnitude]
    cases negative with
    | true =>
      rw [if_pos rfl] at h
      split at h
      · next hbounds =>
        cases h
        rw [decide_eq_true (by omega), Int.natAbs_neg, Int.natAbs_natCast] at hrounded
        rw [Binary64.ofInt, decide_eq_true (by omega), Int.natAbs_neg, Int.natAbs_natCast]
        exact hrounded
      · cases h
    | false =>
      rw [if_neg (by decide)] at h
      split at h
      · cases h
        rw [decide_eq_false (by omega), Int.natAbs_natCast] at hrounded
        rw [Binary64.ofInt, decide_eq_false (by omega), Int.natAbs_natCast]
        exact hrounded
      · cases h

/-- A numeral that is rounded to the nearest number is read as that number. -/
theorem isRounded_value {n : Numeral} {number : JsonNumber} (hn : n.RoundsToNearest)
    (h : n.value = .ok number) :
    Binary64.IsRounded n.negative n.magnitude number.toBinary64 := by
  unfold Numeral.value at h
  split at h
  · next i hwhole =>
    cases h
    exact isRounded_toWhole? hwhole
  · next hwhole =>
    split at h
    · cases h
      exact hn hwhole
    · cases h

end Conditions.Json
