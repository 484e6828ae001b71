import Conditions.Json.Printer
import Conditions.Proofs.Json.Numerals
import Conditions.Proofs.Number.Shortest

/-!
# Written numbers are read

What is written for a number is the text of a numeral (`text_numeralOf`), in each of the four ways
of writing digits, and the number is nearest of all to what the numeral denotes
(`isRounded_ofDigits`). So a number is read back from what is written for it (`Survives`) if the
numeral is rounded to the nearest number (`survives_of_roundsToNearest`), as it is if it has few
digits (`survives_of_isShort`). Not all numbers are read back.
-/

namespace Conditions.Json

open Numeral

variable {ds : List Char}

/-! ### Written digits -/

variable {negative : Bool} {d : Digits}

/-- The numeral that digits are written as. -/
def ofDigits (negative : Bool) (d : Digits) : Numeral :=
  if Layout.document.isPositional d.point then
    if d.point ≤ 0 then
      ⟨negative, ['0'], some (List.replicate (-d.point).toNat '0' ++ d.digits), none⟩
    else if d.digits.length ≤ d.point.toNat then
      ⟨negative, d.digits ++ List.replicate (d.point.toNat - d.digits.length) '0', some ['0'], none⟩
    else ⟨negative, d.digits.take d.point.toNat, some (d.digits.drop d.point.toNat), none⟩
  else
    ⟨negative, d.digits.take 1, if d.digits.length ≤ 1 then none else some (d.digits.drop 1),
      some (d.point - 1)⟩

theorem text_ofDigits (negative : Bool) (d : Digits) :
    (ofDigits negative d).text = signText negative ++ Layout.document.write d := by
  unfold ofDigits Layout.write
  split
  · unfold Layout.positional
    split
    · simp [Numeral.text, fractionText, exponentText]
    · split
      · simp [Numeral.text, fractionText, exponentText, Layout.document]
      · simp [Numeral.text, fractionText, exponentText]
  · unfold Layout.scientific
    split <;> simp [Numeral.text, fractionText, exponentText]

theorem negative_ofDigits (negative : Bool) (d : Digits) :
    (ofDigits negative d).negative = negative := by
  unfold ofDigits
  split
  · split
    · rfl
    · split <;> rfl
  · rfl

theorem toWhole?_ofDigits (negative : Bool) (d : Digits) :
    (ofDigits negative d).toWhole? = none := by
  unfold ofDigits
  split
  · split
    · rfl
    · split
      · rfl
      · rfl
  · simp [toWhole?]

theorem areDigits_zero : AreDigits ['0'] :=
  ⟨List.cons_ne_nil _ _, List.forall_mem_singleton.mpr rfl⟩

theorem isDigit_of_mem_zeros (k : Nat) : ∀ c ∈ List.replicate k '0', c.isDigit = true := by
  intro c hc
  rw [List.eq_of_mem_replicate hc]
  rfl

theorem areDigits_append_zeros (hds : AreDigits ds) (k : Nat) :
    AreDigits (ds ++ List.replicate k '0') :=
  ⟨List.append_ne_nil_of_left_ne_nil hds.1 _,
    List.forall_mem_append.mpr ⟨hds.2, isDigit_of_mem_zeros k⟩⟩

theorem areDigits_zeros_append (hds : AreDigits ds) (k : Nat) :
    AreDigits (List.replicate k '0' ++ ds) :=
  ⟨List.append_ne_nil_of_right_ne_nil _ hds.1,
    List.forall_mem_append.mpr ⟨isDigit_of_mem_zeros k, hds.2⟩⟩

theorem areDigits_take (hds : AreDigits ds) {k : Nat} (hk : 0 < k) : AreDigits (ds.take k) := by
  refine ⟨fun h => ?_, fun c hc => hds.2 c (List.mem_of_mem_take hc)⟩
  rcases List.take_eq_nil_iff.mp h with rfl | hnil
  · cases hk
  · exact hds.1 hnil

theorem areDigits_drop (hds : AreDigits ds) {k : Nat} (hk : k < ds.length) :
    AreDigits (ds.drop k) :=
  ⟨fun h => by have := List.drop_eq_nil_iff.mp h; omega,
    fun c hc => hds.2 c (List.mem_of_mem_drop hc)⟩

theorem proper_ofDigits (negative : Bool) (hd : d.Proper) : (ofDigits negative d).Proper := by
  have hds : AreDigits d.digits := ⟨hd.ne_nil, hd.isDigit⟩
  unfold ofDigits
  split
  · split
    · next hpoint =>
      refine ⟨areDigits_zero, fun _ => rfl, ?_⟩
      rintro _ ⟨⟩
      exact areDigits_zeros_append hds _
    · split
      · next hpoint hlength =>
        refine ⟨areDigits_append_zeros hds _, fun hhead => ?_, ?_⟩
        · rw [List.head?_append_of_ne_nil _ hds.1] at hhead
          rw [hd.eq_zero_of_head hhead]
          rfl
        · rintro _ ⟨⟩
          exact areDigits_zero
      · next hpoint hlength =>
        refine ⟨areDigits_take hds (by omega), fun hhead => ?_, ?_⟩
        · rw [List.head?_take, if_neg (by omega)] at hhead
          rw [hd.eq_zero_of_head hhead] at hlength
          exact absurd (by decide) hlength
        · rintro _ ⟨⟩
          exact areDigits_drop hds (by omega)
  · refine ⟨areDigits_take hds (by decide), fun hhead => ?_, ?_⟩
    · rw [List.head?_take, if_neg (by decide)] at hhead
      rw [hd.eq_zero_of_head hhead]
      rfl
    · intro ds hfraction
      rcases Nat.lt_or_ge 1 d.digits.length with h | h
      · rw [if_neg (by omega)] at hfraction
        cases hfraction
        exact areDigits_drop hds h
      · rw [if_pos h] at hfraction
        cases hfraction

/-- Zeros between the point and the digits scale them down. -/
theorem nearest_zeros_before (negative : Bool) (ds : List Char) (k : Nat) :
    Numeral.nearest ⟨negative, ['0'], some (List.replicate k '0' ++ ds), none⟩ =
      .ofDecimal negative (decimalValue ds) (-k - ds.length) := by
  have hvalue : decimalValue (['0'] ++ (List.replicate k '0' ++ ds)) = decimalValue ds :=
    (decimalValue_zeros_append 1 _).trans (decimalValue_zeros_append k ds)
  have hexp : (0 : Int) - (List.replicate k '0' ++ ds).length = -k - ds.length := by
    rw [List.length_append, List.length_replicate]
    omega
  exact congrArg₂ (Binary64.ofDecimal negative) hvalue hexp

/-- Zeros between the digits and the point scale them up. -/
theorem nearest_zeros_after (negative : Bool) (ds : List Char) (k : Nat) :
    Numeral.nearest ⟨negative, ds ++ List.replicate k '0', some ['0'], none⟩ =
      .ofDecimal negative (decimalValue ds) k := by
  have hvalue : decimalValue (ds ++ List.replicate k '0' ++ ['0']) =
      decimalValue ds * 10 ^ (k + 1) := by
    rw [List.append_assoc, ← List.replicate_succ', decimalValue_append_zeros]
  have hexp : (0 : Int) - (['0'] : List Char).length + (k + 1 : Nat) = k := by
    rw [List.length_singleton]
    omega
  calc Numeral.nearest ⟨negative, ds ++ List.replicate k '0', some ['0'], none⟩
      = .ofDecimal negative (decimalValue ds * 10 ^ (k + 1)) (0 - (['0'] : List Char).length) :=
        congrArg (Binary64.ofDecimal negative · _) hvalue
    _ = .ofDecimal negative (decimalValue ds) k := by rw [Binary64.ofDecimal_mul_pow, hexp]

/-- A point among the digits scales them down by those after it. -/
theorem nearest_point_among (negative : Bool) {ds : List Char} {k : Nat} (hk : k ≤ ds.length)
    (exponent : Option Int) :
    Numeral.nearest ⟨negative, ds.take k, some (ds.drop k), exponent⟩ =
      .ofDecimal negative (decimalValue ds) (exponent.getD 0 + k - ds.length) := by
  have hvalue : decimalValue (ds.take k ++ ds.drop k) = decimalValue ds := by
    rw [List.take_append_drop]
  have hexp : exponent.getD 0 - (ds.drop k).length = exponent.getD 0 + k - ds.length := by
    rw [List.length_drop]
    omega
  exact congrArg₂ (Binary64.ofDecimal negative) hvalue hexp

/-- However digits are written, they stand for one decimal. -/
theorem nearest_ofDigits (negative : Bool) (hd : d.digits ≠ []) :
    (ofDigits negative d).nearest =
      .ofDecimal negative (decimalValue d.digits) (d.point - d.digits.length) := by
  unfold ofDigits
  split
  · split
    · next hpoint =>
      rw [nearest_zeros_before]
      congr 1
      omega
    · split
      · next hpoint hlength =>
        rw [nearest_zeros_after]
        congr 1
        omega
      · next hpoint hlength =>
        rw [nearest_point_among negative (by omega), Option.getD_none]
        congr 1
        omega
  · have hone : 1 ≤ d.digits.length := List.length_pos_of_ne_nil hd
    split
    · next hlength =>
      have hvalue : d.digits.take 1 ++ [] = d.digits := by
        rw [List.append_nil, List.take_of_length_le hlength]
      have hexp : d.point - 1 - ([] : List Char).length = d.point - d.digits.length := by
        rw [List.length_nil]
        omega
      exact congrArg₂ (Binary64.ofDecimal negative) (congrArg decimalValue hvalue) hexp
    · rw [nearest_point_among negative hone, Option.getD_some]
      congr 1
      omega

/-! ### Written numbers -/

/-- A number that is kept when it is written: a whole number of 64 bits or a finite number. -/
def Kept : JsonNumber → Prop
  | .whole i => -0x8000000000000000 ≤ i ∧ i < 0x10000000000000000
  | .real x => x.isFinite = true

/-- The numeral of a whole number. -/
def ofWhole (i : Int) : Numeral := ⟨decide (i < 0), Nat.toDigits 10 i.natAbs, none, none⟩

theorem text_ofWhole (i : Int) : (ofWhole i).text = writeNumber (.whole i) := by
  show _ = (toString i).toList
  rw [toList_toString]
  simp [ofWhole, Numeral.text, fractionText, exponentText]

theorem proper_ofWhole (i : Int) : (ofWhole i).Proper := by
  refine ⟨areDigits_toDigits _, fun hhead => ?_, fun ds h => by cases h⟩
  by_cases h : i.natAbs = 0
  · simp only [ofWhole, h, Nat.toDigits_zero]
  · exact absurd hhead (head?_toDigits_ne_zero h)

/-- The numeral that is written for a number. -/
def numeralOf : JsonNumber → Numeral
  | .whole i => ofWhole i
  | .real x => ofDigits x.negative x.shortest

/-- What is written for a number is the text of its numeral. -/
theorem text_numeralOf (n : JsonNumber) : (numeralOf n).text = writeNumber n := by
  cases n with
  | whole i => exact text_ofWhole i
  | real x => exact text_ofDigits x.negative x.shortest

theorem proper_numeralOf {n : JsonNumber} (hn : Kept n) : (numeralOf n).Proper := by
  cases n with
  | whole i => exact proper_ofWhole i
  | real x =>
    exact proper_ofDigits _ (Binary64.proper_shortest (of_decide_eq_true hn : x.rank < _))

/-! ### Numbers that are read back -/

variable {x : Binary64}

/-- A number, if it is finite, is read back from what is written for it. -/
def Survives (x : Binary64) : Prop :=
  x.isFinite = true → readNumber (writeNumber (.real x)) = (Leaf.ok (.real x), [])

/-- The digits that are written for a finite number denote a decimal to which it is nearest. -/
theorem isRounded_ofDigits (hx : x.isFinite = true) :
    Binary64.IsRounded x.negative (ofDigits x.negative x.shortest).magnitude x := by
  have hrank : x.rank < Binary64.infinityRank := of_decide_eq_true hx
  have hnearest : (ofDigits x.negative x.shortest).nearest = x := by
    rw [nearest_ofDigits _ (Binary64.proper_shortest hrank).ne_nil,
      Binary64.ofDecimal_shortest hrank]
  have hrounded := isRounded_nearest (ofDigits x.negative x.shortest)
  rwa [hnearest, negative_ofDigits] at hrounded

/-- What the numeral of a number is read as. -/
theorem value_numeralOf (x : Binary64) : (numeralOf (.real x)).value =
    if (numeralOf (.real x)).toBinary64.isFinite then .ok (.real (numeralOf (.real x)).toBinary64)
    else .error .malformed := by
  rw [Numeral.value, numeralOf, toWhole?_ofDigits]

/-- A number is read back exactly if the numeral that is written for it is read as the number. -/
theorem survives_iff : Survives x ↔
    (x.isFinite = true → (numeralOf (.real x)).toBinary64 = x) := by
  refine forall_congr' fun hx => ?_
  have htext : writeNumber (.real x) = (numeralOf (.real x)).text ++ [] := by
    rw [List.append_nil, text_numeralOf]
  have hproper : (numeralOf (.real x)).Proper := proper_numeralOf (show Kept (.real x) from hx)
  rw [htext, readNumber, readNumeral_text hproper.isText_text endsNumber_nil]
  dsimp only
  rw [value_numeralOf]
  constructor
  · intro h
    have hcontent := congrArg (fun read => read.1.content) h
    dsimp only [Leaf.ok] at hcontent
    split at hcontent
    · exact JsonNumber.real.inj (Except.ok.inj hcontent)
    · cases hcontent
  · intro h
    rw [h, if_pos hx]
    rfl

instance (x : Binary64) : Decidable (Survives x) := decidable_of_iff' _ survives_iff

/-- **A number is read back if its numeral is rounded to the nearest number.** -/
theorem survives_of_roundsToNearest (h : (ofDigits x.negative x.shortest).RoundsToNearest) :
    Survives x := by
  refine survives_iff.mpr fun hx => ?_
  have hrounded := h (toWhole?_ofDigits _ _)
  rw [negative_ofDigits] at hrounded
  exact hrounded.unique (isRounded_ofDigits hx)

/-- **A number is read back if few digits are written for it.** -/
theorem survives_of_isShort (h : (ofDigits x.negative x.shortest).IsShort) : Survives x :=
  survives_of_roundsToNearest fun _ => h.isRounded

end Conditions.Json
