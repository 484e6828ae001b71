import Conditions.Proofs.Number.Digits
import Conditions.Proofs.Number.Nearest
import Conditions.Proofs.Text.Trimming

/-!
# The grammar of decimals

A decimal is a sign, digits around a point and a power of ten; the grammar is given apart from the
reader (`Decimal.IsText`), and the reader accepts exactly its texts (`parse?_eq_some_iff`). What is
read is rounded to the nearest number (`isRounded_toBinary64`).

The reader splits off the longest run of digits at each place. It finds the parts of a decimal
because what follows each run begins with something else: a point, the letter of a power of ten, or
nothing.
-/

namespace Conditions

namespace Decimal

/-! ### The grammar of decimals -/

/-- An optional sign, and whether it is a minus sign. -/
inductive IsSign : List Char → Bool → Prop where
  /-- No sign. -/
  | none : IsSign [] false
  /-- A plus sign. -/
  | plus : IsSign ['+'] false
  /-- A minus sign. -/
  | minus : IsSign ['-'] true

/-- Decimal digits, any number of them. -/
def AreDigits (ds : List Char) : Prop := ∀ c ∈ ds, c.isDigit = true

/-- Digits with an optional point among, before or after them; the digits alone, and how many of
them come after the point. -/
inductive IsMantissa : List Char → List Char → Nat → Prop where
  /-- No point: `D+`. -/
  | whole {ds : List Char} (digits : AreDigits ds) (ne_nil : ds ≠ []) : IsMantissa ds ds 0
  /-- A point after a digit: `D+.D*`. -/
  | point {ds es : List Char} (digits : AreDigits ds) (ne_nil : ds ≠ []) (digits' : AreDigits es) :
    IsMantissa (ds ++ '.' :: es) (ds ++ es) es.length
  /-- A point before all digits: `.D+`. -/
  | fraction {es : List Char} (digits : AreDigits es) (ne_nil : es ≠ []) :
    IsMantissa ('.' :: es) es es.length

/-- An optional power of ten. -/
inductive IsPower : List Char → Int → Prop where
  /-- No power of ten. -/
  | none : IsPower [] 0
  /-- A letter, an optional sign and digits: `[eE][+-]?D+`. -/
  | power {letter : Char} {sign ds : List Char} {negative : Bool}
    (letter_eq : letter = 'e' ∨ letter = 'E') (sign_eq : IsSign sign negative)
    (digits : AreDigits ds) (ne_nil : ds ≠ []) :
    IsPower (letter :: (sign ++ ds))
      (if negative then -(Nat.ofDigitChars 10 ds 0 : Int) else Nat.ofDigitChars 10 ds 0)

/-- A text is a decimal: a sign, digits around a point and a power of ten. -/
inductive IsText : List Char → Decimal → Prop where
  /-- The three parts in order; each digit after the point is a tenth. -/
  | parts {sign mantissa ds power : List Char} {negative : Bool} {places : Nat} {exponent : Int}
    (sign_eq : IsSign sign negative) (digits : IsMantissa mantissa ds places)
    (power_eq : IsPower power exponent) :
    IsText (sign ++ (mantissa ++ power)) ⟨negative, Nat.ofDigitChars 10 ds 0, exponent - places⟩

/-- The magnitude that a decimal denotes. -/
def magnitude (d : Decimal) : ℚ := d.digits * 10 ^ d.exponent

/-! ### Signs and runs of digits -/

variable {s ds rest : List Char}

theorem splitSign_append {sign : List Char} {negative : Bool} (h : IsSign sign negative)
    (hrest : ∀ c, rest.head? = some c → c ≠ '+' ∧ c ≠ '-') :
    splitSign (sign ++ rest) = (negative, rest) := by
  cases h with
  | none =>
    show splitSign rest = (false, rest)
    unfold splitSign
    split
    · exact absurd rfl (hrest '-' rfl).2
    · exact absurd rfl (hrest '+' rfl).1
    · rfl
  | plus => rfl
  | minus => rfl

theorem exists_sign {negative : Bool} (h : splitSign s = (negative, rest)) :
    ∃ sign, IsSign sign negative ∧ s = sign ++ rest := by
  unfold splitSign at h
  split at h
  · cases h
    exact ⟨['-'], .minus, rfl⟩
  · cases h
    exact ⟨['+'], .plus, rfl⟩
  · cases h
    exact ⟨[], .none, rfl⟩

theorem areDigits_iff_all : AreDigits ds ↔ ds.all Char.isDigit = true := List.all_eq_true.symm

theorem areDigits_takeWhile (s : List Char) : AreDigits (s.takeWhile Char.isDigit) :=
  fun _ => List.mem_takeWhile_imp

theorem isDigit_ne {c d : Char} (hc : c.isDigit = true) (hd : d.isDigit = false) : c ≠ d := by
  rintro rfl
  rw [hc] at hd
  cases hd

/-- Digits begin with no sign. -/
theorem ne_sign_of_areDigits (hds : AreDigits ds) (hne : ds ≠ []) {c : Char}
    (h : (ds ++ rest).head? = some c) : c ≠ '+' ∧ c ≠ '-' := by
  obtain ⟨d, ds, rfl⟩ := List.exists_cons_of_ne_nil hne
  obtain rfl : d = c := Option.some.inj h
  have hd : d.isDigit = true := hds d List.mem_cons_self
  exact ⟨isDigit_ne hd rfl, isDigit_ne hd rfl⟩

/-! ### Powers of ten -/

theorem parseExponent?_eq_some_iff {exponent : Int} :
    parseExponent? s = some exponent ↔ IsPower s exponent := by
  constructor
  · intro h
    cases s with
    | nil =>
      cases h
      exact .none
    | cons c s =>
      obtain ⟨⟨negative, ds⟩, hsplit⟩ : ∃ split, splitSign s = split := ⟨_, rfl⟩
      obtain ⟨sign, hsign, rfl⟩ := exists_sign hsplit
      simp only [parseExponent?, hsplit, Option.ite_none_right_eq_some, Option.some.injEq] at h
      obtain ⟨⟨hletter, hne, hall⟩, hvalue⟩ := h
      rw [← hvalue, decimalValue_eq]
      exact .power hletter hsign (areDigits_iff_all.mpr hall) hne
  · intro h
    cases h with
    | none => rfl
    | power hletter hsign hdigits hne =>
      next letter sign ds negative =>
      have hsplit : splitSign (sign ++ ds) = (negative, ds) :=
        splitSign_append hsign fun c hc =>
          ne_sign_of_areDigits hdigits hne ((List.append_nil ds).symm ▸ hc)
      simp only [parseExponent?, hsplit]
      rw [if_pos ⟨hletter, hne, areDigits_iff_all.mp hdigits⟩, decimalValue_eq]

/-- A power of ten begins with neither a digit nor a point. -/
theorem IsPower.head {exponent : Int} (h : IsPower s exponent) {c : Char}
    (hc : s.head? = some c) : c.isDigit = false ∧ c ≠ '.' := by
  cases h with
  | none => cases hc
  | power hletter _ _ _ =>
    cases hc
    rcases hletter with rfl | rfl <;> decide

/-! ### Digits around a point -/

/-- The reader finds the digits of a numeral, and what follows them. -/
theorem split_mantissa {mantissa power : List Char} {places : Nat} {exponent : Int}
    (h : IsMantissa mantissa ds places) (hpower : IsPower power exponent) :
    ∃ whole fraction, (mantissa ++ power).takeWhile Char.isDigit = whole ∧
      splitFraction ((mantissa ++ power).dropWhile Char.isDigit) = (fraction, power) ∧
      ¬ (whole = [] ∧ fraction = []) ∧ ds = whole ++ fraction ∧ places = fraction.length := by
  have hends : ∀ c, power.head? = some c → c.isDigit = false := fun c hc => (hpower.head hc).1
  have hpoint (es : List Char) : ∀ c, ('.' :: es).head? = some c → c.isDigit = false := by
    rintro _ ⟨⟩
    rfl
  have hfraction {es : List Char} (hes : AreDigits es) :
      splitFraction ('.' :: (es ++ power)) = (es, power) := by
    rw [splitFraction, takeWhile_append_of_stop hes hends, dropWhile_append_of_stop hes hends]
  cases h with
  | whole hds hne =>
    have hsplit : splitFraction power = ([], power) := by
      unfold splitFraction
      split
      · exact absurd rfl (hpower.head rfl).2
      · rfl
    refine ⟨ds, [], takeWhile_append_of_stop hds hends, ?_, fun h => hne h.1,
      (List.append_nil ds).symm, rfl⟩
    rw [dropWhile_append_of_stop hds hends, hsplit]
  | point hds hne hes =>
    next ds es =>
    refine ⟨ds, es, ?_, ?_, fun h => hne h.1, rfl, rfl⟩
    · rw [List.append_assoc]
      exact takeWhile_append_of_stop hds (hpoint _)
    · rw [List.append_assoc, List.cons_append, dropWhile_append_of_stop hds (hpoint _)]
      exact hfraction hes
  | fraction hes hne => exact ⟨[], ds, rfl, hfraction hes, fun h => hne h.2, rfl, rfl⟩

/-- What the reader splits off are the digits of a numeral. -/
theorem exists_mantissa {whole tail fraction power : List Char} (hwhole : AreDigits whole)
    (hsplit : splitFraction tail = (fraction, power)) (hne : ¬ (whole = [] ∧ fraction = [])) :
    ∃ mantissa, whole ++ tail = mantissa ++ power ∧
      IsMantissa mantissa (whole ++ fraction) fraction.length := by
  unfold splitFraction at hsplit
  split at hsplit
  · next tail =>
    cases hsplit
    refine ⟨whole ++ '.' :: tail.takeWhile Char.isDigit, ?_, ?_⟩
    · rw [List.append_assoc, List.cons_append, List.takeWhile_append_dropWhile]
    · by_cases hempty : whole = []
      · rw [hempty, List.nil_append, List.nil_append]
        exact .fraction (areDigits_takeWhile tail) fun h => hne ⟨hempty, h⟩
      · exact .point hwhole hempty (areDigits_takeWhile tail)
  · cases hsplit
    refine ⟨whole, rfl, ?_⟩
    rw [List.append_nil]
    exact .whole hwhole fun h => hne ⟨h, rfl⟩

/-! ### Whole decimals -/

theorem IsMantissa.head {mantissa : List Char} {places : Nat} (h : IsMantissa mantissa ds places)
    {c : Char} (hc : (mantissa ++ rest).head? = some c) : c ≠ '+' ∧ c ≠ '-' := by
  cases h with
  | whole hds hne => exact ne_sign_of_areDigits hds hne hc
  | point hds hne _ =>
    rw [List.append_assoc] at hc
    exact ne_sign_of_areDigits hds hne hc
  | fraction _ _ =>
    cases hc
    decide

/-- **The reader of decimals accepts the texts of the grammar**, and finds what they denote. -/
theorem parse?_eq_some_iff {d : Decimal} : parse? s = some d ↔ IsText s d := by
  constructor
  · intro h
    obtain ⟨⟨negative, rest⟩, hsplit⟩ : ∃ split, splitSign s = split := ⟨_, rfl⟩
    obtain ⟨⟨fraction, power⟩, hfraction⟩ :
        ∃ split, splitFraction (rest.dropWhile Char.isDigit) = split := ⟨_, rfl⟩
    obtain ⟨sign, hsign, rfl⟩ := exists_sign hsplit
    simp only [parse?, hsplit, hfraction, Option.ite_none_left_eq_some,
      Option.map_eq_some_iff] at h
    obtain ⟨hne, exponent, hexponent, rfl⟩ := h
    obtain ⟨mantissa, hrest, hmantissa⟩ :=
      exists_mantissa (areDigits_takeWhile rest) hfraction hne
    rw [List.takeWhile_append_dropWhile] at hrest
    rw [decimalValue_eq, hrest]
    have htext := IsText.parts hsign hmantissa (parseExponent?_eq_some_iff.mp hexponent)
    rwa [← hrest] at htext ⊢
  · rintro ⟨hsign, hmantissa, hpower⟩
    obtain ⟨whole, fraction, hwhole, hfraction, hne, rfl, rfl⟩ := split_mantissa hmantissa hpower
    simp only [parse?, splitSign_append hsign fun c hc => hmantissa.head hc, hwhole, hfraction]
    rw [if_neg hne, parseExponent?_eq_some_iff.mpr hpower, decimalValue_eq]
    rfl

/-- A decimal is rounded to the nearest number, with its sign. -/
theorem isRounded_toBinary64 (d : Decimal) :
    Binary64.IsRounded d.negative d.magnitude d.toBinary64 :=
  Binary64.isRounded_ofDecimal d.negative d.digits d.exponent

end Decimal

end Conditions
