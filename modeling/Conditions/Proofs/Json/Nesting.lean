import Conditions.Proofs.Json.Trees

/-!
# How deep a text is nested

The nesting of a text is counted on its characters: brackets and braces open and close lists and
objects, except between quotes (`textNesting`). What is written for a value is nested as deep as the
value is (`textNesting_compact`): quotes enclose no more than their text, since quotes in it are
escaped, and words and numbers hold neither quotes nor brackets.
-/

namespace Conditions.Json

/-- Where a place of a text is. -/
inductive Place where
  /-- Outside quotes. -/
  | outside
  /-- Between quotes. -/
  | quoted
  /-- Between quotes after a backslash. -/
  | escaped

/-- The greatest number of lists and objects that are open at once from a place of a text on, where
`depth` are open. -/
def deepest : Place → Nat → List Char → Nat
  | _, depth, [] => depth
  | .escaped, depth, _ :: s => deepest .quoted depth s
  | .quoted, depth, c :: s =>
    if c = '"' then deepest .outside depth s
    else if c = '\\' then deepest .escaped depth s
    else deepest .quoted depth s
  | .outside, depth, c :: s =>
    if c = '"' then deepest .quoted depth s
    else if c = '[' ∨ c = '\x7b' then deepest .outside (depth + 1) s
    else if c = ']' ∨ c = '\x7d' then max depth (deepest .outside (depth - 1) s)
    else deepest .outside depth s

/-- How deep lists and objects are nested in a text. -/
def textNesting (text : String) : Nat := deepest .outside 0 text.toList

mutual

/-- How deep lists and objects are nested in a value. -/
def nesting : Json → Nat
  | .array items => itemsNesting items + 1
  | .object members => membersNesting members + 1
  | .null | .bool _ | .number _ | .text _ => 0

/-- The deepest nesting of some items. -/
def itemsNesting : List Json → Nat
  | [] => 0
  | item :: items => max (nesting item) (itemsNesting items)

/-- The deepest nesting of some members. -/
def membersNesting : List (String × Json) → Nat
  | [] => 0
  | (_, value) :: members => max (nesting value) (membersNesting members)

end

theorem membersNesting_append (ms ns : List (String × Json)) :
    membersNesting (ms ++ ns) = max (membersNesting ms) (membersNesting ns) := by
  induction ms with
  | nil => exact (Nat.max_eq_right (Nat.zero_le _)).symm
  | cons m ms ih => rw [List.cons_append, membersNesting, membersNesting, ih, Nat.max_assoc]

variable {c : Char} {letters s : List Char} {depth : Nat}

/-! ### Going on in a text -/

theorem le_deepest (place : Place) (depth : Nat) (s : List Char) :
    depth ≤ deepest place depth s := by
  induction s generalizing place depth with
  | nil => cases place <;> exact Nat.le_refl depth
  | cons c s ih =>
    cases place with
    | escaped => exact ih .quoted depth
    | quoted =>
      rw [deepest]
      split
      · exact ih .outside depth
      · split
        · exact ih .escaped depth
        · exact ih .quoted depth
    | outside =>
      rw [deepest]
      split
      · exact ih .quoted depth
      · split
        · exact Nat.le_of_succ_le (ih .outside (depth + 1))
        · split
          · exact Nat.le_max_left _ _
          · exact ih .outside depth

/-- A character that opens and closes nothing. -/
def IsPlain (c : Char) : Prop := c ≠ '"' ∧ c ≠ '[' ∧ c ≠ '\x7b' ∧ c ≠ ']' ∧ c ≠ '\x7d'

instance (c : Char) : Decidable (IsPlain c) :=
  inferInstanceAs (Decidable (c ≠ '"' ∧ c ≠ '[' ∧ c ≠ '\x7b' ∧ c ≠ ']' ∧ c ≠ '\x7d'))

theorem deepest_plain (h : IsPlain c) (depth : Nat) (s : List Char) :
    deepest .outside depth (c :: s) = deepest .outside depth s := by
  obtain ⟨hquote, hbracket, hbrace, hbracket', hbrace'⟩ := h
  rw [deepest, if_neg hquote, if_neg (not_or.mpr ⟨hbracket, hbrace⟩),
    if_neg (not_or.mpr ⟨hbracket', hbrace'⟩)]

theorem deepest_plain_append (h : ∀ c ∈ letters, IsPlain c) (depth : Nat) (s : List Char) :
    deepest .outside depth (letters ++ s) = deepest .outside depth s := by
  induction letters with
  | nil => rfl
  | cons c letters ih =>
    obtain ⟨hc, hletters⟩ := List.forall_mem_cons.mp h
    rw [List.cons_append, deepest_plain hc, ih hletters]

theorem deepest_open (h : c = '[' ∨ c = '\x7b') (depth : Nat) (s : List Char) :
    deepest .outside depth (c :: s) = deepest .outside (depth + 1) s := by
  have hquote : c ≠ '"' := by
    rintro rfl
    exact absurd h (by decide)
  rw [deepest, if_neg hquote, if_pos h]

theorem deepest_close (h : c = ']' ∨ c = '\x7d') (depth : Nat) (s : List Char) :
    deepest .outside (depth + 1) (c :: s) = max (depth + 1) (deepest .outside depth s) := by
  have hquote : c ≠ '"' := by
    rintro rfl
    exact absurd h (by decide)
  have hopen : ¬ (c = '[' ∨ c = '\x7b') := by
    rintro (rfl | rfl)
    · exact absurd h (by decide)
    · exact absurd h (by decide)
  rw [deepest, if_neg hquote, if_neg hopen, if_pos h, Nat.add_sub_cancel]

/-! ### Texts -/

theorem hexDigit_ne {n : Nat} (h : n < 16) : hexDigit n ≠ '"' ∧ hexDigit n ≠ '\\' :=
  (by decide : ∀ n < 16, hexDigit n ≠ '"' ∧ hexDigit n ≠ '\\') n h

/-- A written character does not end a text. -/
theorem deepest_writtenAs (h : WrittenAs c letters) (depth : Nat) (s : List Char) :
    deepest .quoted depth (letters ++ s) = deepest .quoted depth s := by
  cases h with
  | plain hquote hslash hcontrol =>
    rw [List.singleton_append, deepest, if_neg hquote, if_neg hslash]
  | short h => rfl
  | number h =>
    obtain ⟨hquote, hslash⟩ := hexDigit_ne (by omega : c.toNat / 16 < 16)
    obtain ⟨hquote', hslash'⟩ := hexDigit_ne (by omega : c.toNat % 16 < 16)
    simp [deepest, hquote, hslash, hquote', hslash']

/-- A written text holds no lists or objects. -/
theorem deepest_writeText (text : String) (depth : Nat) (s : List Char) :
    deepest .outside depth (writeText text ++ s) = deepest .outside depth s := by
  have hcontent (cs : List Char) :
      deepest .quoted depth (cs.flatMap escapeChar ++ '"' :: s) = deepest .outside depth s := by
    induction cs with
    | nil => rfl
    | cons c cs ih =>
      rw [List.flatMap_cons, List.append_assoc, deepest_writtenAs (writtenAs_escapeChar c), ih]
  unfold writeText
  simp only [List.cons_append, List.append_assoc, List.nil_append]
  exact hcontent text.toList

/-! ### Numbers -/

theorem isPlain_of_isDigit (h : c.isDigit = true) : IsPlain c := by
  refine ⟨?_, ?_, ?_, ?_, ?_⟩ <;>
  · rintro rfl
    cases h

theorem isPlain_sign (negative : Bool) : ∀ c ∈ Numeral.signText negative, IsPlain c := by
  cases negative with
  | true => exact List.forall_mem_singleton.mpr (by decide)
  | false => exact fun _ hc => by cases hc

theorem isPlain_toString (i : Int) : ∀ c ∈ (toString i).toList, IsPlain c := by
  rw [toList_toString]
  exact List.forall_mem_append.mpr ⟨isPlain_sign _, fun _ hc =>
    isPlain_of_isDigit (isDigit_of_mem_toDigits hc)⟩

/-- A written number holds no lists or objects. -/
theorem isPlain_writeNumber {n : JsonNumber} (hn : Kept n) : ∀ c ∈ writeNumber n, IsPlain c := by
  obtain ⟨⟨negative, whole, fraction, exponent⟩, htext, hwhole, -, hfraction⟩ :
      ∃ numeral : Numeral, numeral.text = writeNumber n ∧ numeral.Proper :=
    ⟨numeralOf n, text_numeralOf n, proper_numeralOf hn⟩
  have hfractionText : ∀ c ∈ Numeral.fractionText fraction, IsPlain c := by
    cases fraction with
    | none => exact fun _ hc => by cases hc
    | some ds =>
      refine List.forall_mem_cons.mpr ⟨by decide, fun c hc => ?_⟩
      exact isPlain_of_isDigit ((hfraction ds rfl).2 c hc)
  have hexponentText : ∀ c ∈ Numeral.exponentText exponent, IsPlain c := by
    cases exponent with
    | none => exact fun _ hc => by cases hc
    | some e => exact List.forall_mem_cons.mpr ⟨by decide, isPlain_toString e⟩
  have hwholeText : ∀ c ∈ whole, IsPlain c := fun c hc => isPlain_of_isDigit (hwhole.2 c hc)
  rw [← htext, Numeral.text]
  simp only [List.forall_mem_append]
  exact ⟨isPlain_sign _, hwholeText, hfractionText, hexponentText⟩

/-! ### Values -/

/-- What is written for a value is as deep as the value. -/
def Measured (v : Json) : Prop :=
  ∀ (depth : Nat) (s : List Char),
    deepest .outside depth (write v ++ s) = max (depth + nesting v) (deepest .outside depth s)

theorem measured_of_plain {v : Json} (hv : nesting v = 0)
    (h : ∀ depth s, deepest .outside depth (write v ++ s) = deepest .outside depth s) :
    Measured v := by
  intro depth s
  rw [h, hv, Nat.add_zero, Nat.max_eq_right (le_deepest _ _ _)]

theorem deepest_writeMoreItems {items : List Json} (h : ∀ item ∈ items, Measured item)
    (depth : Nat) (s : List Char) :
    deepest .outside depth (writeMoreItems items ++ s) =
      max (depth + itemsNesting items) (deepest .outside depth s) := by
  induction items with
  | nil => exact (Nat.max_eq_right (le_deepest _ _ _)).symm
  | cons item items ih =>
    obtain ⟨hitem, hitems⟩ := List.forall_mem_cons.mp h
    simp only [writeMoreItems, List.cons_append, List.append_assoc, itemsNesting]
    rw [deepest_plain (by decide), hitem, ih hitems]
    omega

theorem deepest_writeItems {items : List Json} (h : ∀ item ∈ items, Measured item)
    (depth : Nat) (s : List Char) :
    deepest .outside depth (writeItems items ++ s) =
      max (depth + itemsNesting items) (deepest .outside depth s) := by
  cases items with
  | nil => exact (Nat.max_eq_right (le_deepest _ _ _)).symm
  | cons item items =>
    obtain ⟨hitem, hitems⟩ := List.forall_mem_cons.mp h
    simp only [writeItems, List.append_assoc, itemsNesting]
    rw [hitem, deepest_writeMoreItems hitems]
    omega

theorem deepest_writeMoreMembers {members : List (String × Json)}
    (h : ∀ member ∈ members, Measured member.2) (depth : Nat) (s : List Char) :
    deepest .outside depth (writeMoreMembers members ++ s) =
      max (depth + membersNesting members) (deepest .outside depth s) := by
  induction members with
  | nil => exact (Nat.max_eq_right (le_deepest _ _ _)).symm
  | cons member members ih =>
    obtain ⟨name, value⟩ := member
    have hvalue : Measured value := h _ List.mem_cons_self
    have hmembers := fun member hmember => h member (List.mem_cons_of_mem _ hmember)
    simp only [writeMoreMembers, List.cons_append, List.append_assoc, membersNesting]
    rw [deepest_plain (by decide), deepest_writeText, deepest_plain (by decide), hvalue,
      ih hmembers]
    omega

theorem deepest_writeMembers {members : List (String × Json)}
    (h : ∀ member ∈ members, Measured member.2) (depth : Nat) (s : List Char) :
    deepest .outside depth (writeMembers members ++ s) =
      max (depth + membersNesting members) (deepest .outside depth s) := by
  cases members with
  | nil => exact (Nat.max_eq_right (le_deepest _ _ _)).symm
  | cons member members =>
    obtain ⟨name, value⟩ := member
    have hvalue : Measured value := h _ List.mem_cons_self
    have hmembers := fun member hmember => h member (List.mem_cons_of_mem _ hmember)
    simp only [writeMembers, List.cons_append, List.append_assoc, membersNesting]
    rw [deepest_writeText, deepest_plain (by decide), hvalue, deepest_writeMoreMembers hmembers]
    omega

theorem measured_of_allKept {v : Json} (h : AllKept v) : Measured v := by
  induction h with
  | null => exact measured_of_plain rfl fun depth s => rfl
  | bool b =>
    refine measured_of_plain rfl fun depth s => ?_
    cases b with
    | true => rfl
    | false => rfl
  | number hn => exact measured_of_plain rfl (deepest_plain_append (isPlain_writeNumber hn))
  | text text => exact measured_of_plain rfl (deepest_writeText text)
  | @array items h ih =>
    intro depth s
    simp only [write, List.cons_append, List.append_assoc, List.nil_append, nesting]
    rw [deepest_open (.inl rfl), deepest_writeItems ih, deepest_close (.inl rfl)]
    omega
  | @object members h ih =>
    intro depth s
    simp only [write, List.cons_append, List.append_assoc, List.nil_append, nesting]
    rw [deepest_open (.inr rfl), deepest_writeMembers ih, deepest_close (.inr rfl)]
    omega

/-- **A written value is nested as deep as the value is.** -/
theorem textNesting_compact {v : Json} (h : AllKept v) : textNesting v.compact = nesting v := by
  have hmeasured := measured_of_allKept h 0 []
  rw [List.append_nil, Nat.zero_add] at hmeasured
  rw [textNesting, compact, String.toList_ofList, hmeasured]
  exact Nat.max_eq_left (Nat.zero_le _)

end Conditions.Json
