import Conditions.Proofs.Number.Decimals
import Conditions.Settings.Basic

/-!
# Texts of variables

What the text of a variable says is told apart from the readers. The orders of operands and the
truth values have words, in any capitals. The greatest depth has a numeral, of a number that is not
zero and fits into 64 bits, or else nothing or a word for none. Blanks around do not count. Each
reader accepts exactly the texts that say something, and refuses all others with one error
(`parseOrdering_eq_ok_iff`, `parseDepth_eq_ok_iff`, `parseFlag_eq_ok_iff`).
-/

namespace Conditions

open Decimal (IsSign AreDigits areDigits_iff_all isDigit_ne)

variable {text : String} {s core : List Char} {n : Nat}

/-- A text names an order of operands. -/
def NamesOrdering (text : String) (mode : OrderingMode) : Prop :=
  lowerAscii (trim text) = mode.name

/-- The words for a truth value. -/
def flagWords : Bool → List String
  | true => ["1", "true", "yes", "on"]
  | false => ["0", "false", "no", "off"]

/-- A text is a word for a truth value. -/
def NamesFlag (text : String) (flag : Bool) : Prop := lowerAscii (trim text) ∈ flagWords flag

/-- A text is digits of a natural number, after an optional plus sign. -/
inductive IsUnsigned : List Char → Nat → Prop where
  /-- The two parts in order. -/
  | parts {sign ds : List Char} (sign_eq : IsSign sign false) (digits : AreDigits ds)
    (ne_nil : ds ≠ []) : IsUnsigned (sign ++ ds) (Nat.ofDigitChars 10 ds 0)

/-- A text is a numeral of a natural number, with blanks around it. -/
def IsNatural (s : List Char) (n : Nat) : Prop :=
  ∃ before core after, s = before ++ (core ++ after) ∧ (∀ c ∈ before, isBlank c = true) ∧
    (∀ c ∈ after, isBlank c = true) ∧ IsUnsigned core n

/-- A text says what the greatest depth is to be. -/
inductive NamesDepth (text : String) : Option Nat → Prop where
  /-- Nothing says that there is to be none. -/
  | blank (h : trim text = "") : NamesDepth text none
  /-- So does a word, in any capitals. -/
  | word (h : lowerAscii (trim text) = "none") : NamesDepth text none
  /-- A numeral says the depth, if that is a number of 64 bits other than zero. -/
  | numeral {n : Nat} (h : IsNatural text.toList n) (pos : 0 < n) (fits : n < 2 ^ 64) :
    NamesDepth text (some n)

/-! ### Words -/

theorem OrderingMode.ofName?_eq_some_iff {name : String} {mode : OrderingMode} :
    ofName? name = some mode ↔ name = mode.name := by
  unfold ofName?
  constructor
  · intro h
    split at h
    · next hname =>
      cases h
      exact hname
    · obtain ⟨hname, heq⟩ := Option.ite_none_right_eq_some.mp h
      cases heq
      exact hname
  · rintro rfl
    cases mode <;> rfl

/-- **The orders of operands are read from their names.** -/
theorem parseOrdering_eq_ok_iff {mode : OrderingMode} :
    parseOrdering text = .ok mode ↔ NamesOrdering text mode := by
  rw [NamesOrdering, ← OrderingMode.ofName?_eq_some_iff, parseOrdering]
  cases OrderingMode.ofName? (lowerAscii (trim text)) with
  | none => exact ⟨nofun, nofun⟩
  | some other =>
    exact ⟨fun h => congrArg some (Except.ok.inj h), fun h => congrArg _ (Option.some.inj h)⟩

theorem parseOrdering_eq_error {error : SettingsError} (h : parseOrdering text = .error error) :
    error = .unknownOrdering (lowerAscii (trim text)) := by
  dsimp only [parseOrdering] at h
  split at h
  · cases h
  · exact (Except.error.inj h).symm

/-- **Truth values are read from their words.** -/
theorem parseFlag_eq_ok_iff {key : String} {flag : Bool} :
    parseFlag key text = .ok flag ↔ NamesFlag text flag := by
  -- no word is one for both
  have hdisjoint : ∀ word ∈ flagWords true, word ∉ flagWords false := by decide
  rw [NamesFlag, parseFlag]
  split
  · next htrue =>
    cases flag with
    | true => exact iff_of_true rfl htrue
    | false => exact iff_of_false nofun (hdisjoint _ htrue)
  · next htrue =>
    split
    · next hfalse =>
      cases flag with
      | true => exact iff_of_false nofun htrue
      | false => exact iff_of_true rfl hfalse
    · next hfalse =>
      refine iff_of_false nofun ?_
      cases flag with
      | true => exact htrue
      | false => exact hfalse

theorem parseFlag_eq_error {key : String} {error : SettingsError}
    (h : parseFlag key text = .error error) :
    error = .badFlag key (lowerAscii (trim text)) := by
  dsimp only [parseFlag] at h
  split at h
  · cases h
  · split at h
    · cases h
    · exact (Except.error.inj h).symm

/-! ### Numerals -/

theorem isBlank_of_isDigit {c : Char} (h : c.isDigit = true) : isBlank c = false := by
  simp only [Char.isDigit, ge_iff_le, Bool.and_eq_true, decide_eq_true_eq, UInt32.le_iff_toNat_le]
    at h
  have hlow : 48 ≤ c.toNat := h.1
  have hhigh : c.toNat ≤ 57 := h.2
  simp only [isBlank, Bool.or_eq_false_iff, Bool.and_eq_false_iff, decide_eq_false_iff_not,
    beq_eq_false_iff_ne]
  omega

/-- There is no blank in a numeral. -/
theorem IsUnsigned.isBlank_eq_false (h : IsUnsigned core n) {c : Char} (hc : c ∈ core) :
    isBlank c = false := by
  obtain ⟨hsign, hdigits, -⟩ := h
  rcases List.mem_append.mp hc with hc | hc
  · cases hsign with
    | none => cases hc
    | plus =>
      cases List.mem_singleton.mp hc
      rfl
  · exact isBlank_of_isDigit (hdigits c hc)

/-- Digits begin with no sign. -/
theorem not_areDigits_plus (ds : List Char) : ¬AreDigits ('+' :: ds) := fun h =>
  absurd (h '+' List.mem_cons_self) (by decide)

/-- A numeral is of one number. -/
theorem IsUnsigned.unique {n' : Nat} (h : IsUnsigned core n) (h' : IsUnsigned core n') :
    n = n' := by
  obtain ⟨hsign, hdigits, -⟩ := h
  next sign ds =>
  generalize hcore : sign ++ ds = core at h'
  obtain ⟨hsign', hother, -⟩ := h'
  cases hsign with
  | none =>
    cases hsign' with
    | none => rw [List.append_cancel_left hcore]
    | plus =>
      cases hcore
      exact absurd hdigits (not_areDigits_plus _)
  | plus =>
    cases hsign' with
    | none =>
      cases hcore
      exact absurd hother (not_areDigits_plus _)
    | plus => rw [List.append_cancel_left hcore]

theorem isNatural_iff : IsNatural s n ↔ IsUnsigned (trimOf isBlank s) n := by
  constructor
  · rintro ⟨before, core, after, hs, hbefore, hafter, hcore⟩
    have htrimmed : IsTrimmed isBlank s core := ⟨⟨before, after, hs, hbefore, hafter⟩,
      fun c hc => hcore.isBlank_eq_false (List.mem_of_mem_head? hc),
      fun c hc => hcore.isBlank_eq_false (List.mem_of_getLast? hc)⟩
    rwa [trimOf_eq htrimmed]
  · intro h
    obtain ⟨before, after, hs, hbefore, hafter⟩ := (isTrimmed_trimOf isBlank s).around
    exact ⟨before, trimOf isBlank s, after, hs, hbefore, hafter, h⟩

theorem toList_trim (text : String) : (trim text).toList = trimOf isBlank text.toList :=
  String.toList_ofList

/-- A numeral begins with a digit or a plus sign. -/
theorem IsUnsigned.head (h : IsUnsigned core n) :
    ∃ c rest, core = c :: rest ∧ (c = '+' ∨ c.isDigit = true) := by
  obtain ⟨hsign, hdigits, hne⟩ := h
  next ds =>
  cases hsign with
  | none =>
    obtain ⟨d, ds, rfl⟩ := List.exists_cons_of_ne_nil hne
    exact ⟨d, ds, rfl, .inr (hdigits d List.mem_cons_self)⟩
  | plus => exact ⟨'+', ds, rfl, .inl rfl⟩

theorem parseNatural?_eq_some_iff :
    parseNatural? text = some n ↔ IsUnsigned text.toList n ∧ n < 2 ^ 64 := by
  simp only [parseNatural?, Option.ite_none_right_eq_some, Option.some.injEq, decimalValue_eq,
    ← areDigits_iff_all]
  generalize text.toList = s
  constructor
  · split
    · rintro ⟨⟨hne, hdigits, hfits⟩, rfl⟩
      exact ⟨.parts .plus hdigits hne, hfits⟩
    · rintro ⟨⟨hne, hdigits, hfits⟩, rfl⟩
      exact ⟨.parts .none hdigits hne, hfits⟩
  · rintro ⟨⟨hsign, hdigits, hne⟩, hfits⟩
    cases hsign with
    | plus => exact ⟨⟨hne, hdigits, hfits⟩, rfl⟩
    | none =>
      split
      · next hs =>
        cases hs
        exact absurd hdigits (not_areDigits_plus _)
      · exact ⟨⟨hne, hdigits, hfits⟩, rfl⟩

theorem toLower_of_isDigit {c : Char} (h : c.isDigit = true) : c.toLower = c := by
  refine dif_neg fun hupper => ?_
  simp only [Char.isDigit, ge_iff_le, Bool.and_eq_true, decide_eq_true_eq] at h
  exact absurd (UInt32.le_trans hupper.1 h.2) (by decide)

/-- A numeral says neither nothing nor that there is to be no depth. -/
theorem IsUnsigned.not_none (h : IsUnsigned text.toList n) :
    ¬(text = "" ∨ lowerAscii text = "none") := by
  obtain ⟨c, rest, hs, hc⟩ := h.head
  rintro (rfl | hnone)
  · cases hs
  · have hlist : (c :: rest).map Char.toLower = "none".toList := by
      rw [← hnone, lowerAscii, String.toList_ofList, hs]
    have hsmall : c.toLower = 'n' := (List.cons.inj hlist).1
    rcases hc with rfl | hdigit
    · exact absurd hsmall (by decide)
    · rw [toLower_of_isDigit hdigit] at hsmall
      exact isDigit_ne hdigit (by decide) hsmall

/-- A depth that a text says is a number of 64 bits other than zero. -/
theorem NamesDepth.bounds {depth : Option Nat} (h : NamesDepth text depth) :
    ∀ n, depth = some n → 1 ≤ n ∧ n < 2 ^ 64 := by
  cases h with
  | blank | word => exact nofun
  | numeral _ hpos hfits =>
    rintro _ ⟨⟩
    exact ⟨hpos, hfits⟩

/-- **Depths are read from numerals and from what says that there is to be none.** -/
theorem parseDepth_eq_ok_iff {depth : Option Nat} :
    parseDepth text = .ok depth ↔ NamesDepth text depth := by
  have hnatural : ∀ n, (parseNatural? (trim text)).filter (0 < ·) = some n ↔
      (IsNatural text.toList n ∧ n < 2 ^ 64) ∧ 0 < n := by
    intro n
    rw [Option.filter_eq_some_iff, parseNatural?_eq_some_iff, toList_trim, isNatural_iff,
      decide_eq_true_eq]
  dsimp only [parseDepth]
  constructor
  · intro h
    split at h
    · next hnone =>
      cases h
      exact hnone.elim .blank .word
    · split at h
      · next n hread =>
        cases h
        obtain ⟨⟨hn, hfits⟩, hpos⟩ := (hnatural n).mp hread
        exact .numeral hn hpos hfits
      · cases h
  · intro h
    cases h with
    | blank h => exact if_pos (.inl h)
    | word h => exact if_pos (.inr h)
    | numeral hn hpos hfits =>
      have hunsigned := isNatural_iff.mp hn
      rw [← toList_trim] at hunsigned
      rw [if_neg hunsigned.not_none, (hnatural _).mpr ⟨⟨hn, hfits⟩, hpos⟩]

/-- **A numeral says a depth only if the number is one of 64 bits other than zero.** -/
theorem IsNatural.namesDepth_iff (h : IsNatural text.toList n) {depth : Option Nat} :
    NamesDepth text depth ↔ depth = some n ∧ 0 < n ∧ n < 2 ^ 64 := by
  have hunsigned := isNatural_iff.mp h
  constructor
  · intro hdepth
    rw [← toList_trim] at hunsigned
    cases hdepth with
    | blank hblank => exact absurd (.inl hblank) hunsigned.not_none
    | word hword => exact absurd (.inr hword) hunsigned.not_none
    | numeral h' hpos hfits =>
      rw [toList_trim] at hunsigned
      obtain rfl := (isNatural_iff.mp h').unique hunsigned
      exact ⟨rfl, hpos, hfits⟩
  · rintro ⟨rfl, hpos, hfits⟩
    exact .numeral h hpos hfits

theorem parseDepth_eq_error {error : SettingsError} (h : parseDepth text = .error error) :
    error = .badDepth (trim text) := by
  dsimp only [parseDepth] at h
  split at h
  · cases h
  · split at h
    · cases h
    · exact (Except.error.inj h).symm

end Conditions
