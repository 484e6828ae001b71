import Conditions.Json.Leaf
import Conditions.Json.Printer
import Conditions.Proofs.Results

/-!
# Texts between quotes

Between quotes a character stands for itself, is escaped by a letter, or is escaped by its code
units, each as four hexadecimal digits. What may stand between quotes (`IsQuoted`) can always be
passed over, and is read exactly if its escaped units make up characters (`Unescapes`,
`readText_isQuoted`).

What is written for a text stands for it (`unescapes_flatMap`), since a character is written in one
of the same three ways (`WrittenAs`).
-/

namespace Conditions.Json

variable {c : Char} {letters s : List Char} {fuel : Nat}

/-! ### Characters -/

/-- How a character may be written between quotes. -/
inductive WrittenAs (c : Char) : List Char → Prop where
  /-- As itself. -/
  | plain (quote : c ≠ '"') (slash : c ≠ '\\') (control : ¬ c.toNat < 0x20) : WrittenAs c [c]
  /-- As a letter after a backslash. -/
  | short {letter : Char} (h : shortEscape? letter = some c) : WrittenAs c ['\\', letter]
  /-- As its number after a backslash. -/
  | number (control : c.toNat < 0x20) :
    WrittenAs c ['\\', 'u', '0', '0', hexDigit (c.toNat / 16), hexDigit (c.toNat % 16)]

theorem writtenAs_escapeChar (c : Char) : WrittenAs c (escapeChar c) := by
  unfold escapeChar
  split
  · exact .short rfl
  · exact .short rfl
  · exact .short rfl
  · exact .short rfl
  · exact .short rfl
  · exact .short rfl
  · exact .short rfl
  · next hquote hslash _ _ _ _ _ =>
    split
    · next h => exact .number h
    · next h => exact .plain hquote hslash h

/-- The number of a control character, from its two digits. -/
theorem hexValue?_control : ∀ n < 0x20,
    hexValue? ['0', '0', hexDigit (n / 16), hexDigit (n % 16)] = some n := by
  decide

/-! ### What may stand between quotes -/

/-- Four hexadecimal digits and the number that they give. -/
structure GivesUnit (ds : List Char) (n : Nat) : Prop where
  /-- There are four. -/
  length : ds.length = 4
  /-- They give the number. -/
  value : hexValue? ds = some n

/-- A text may stand between quotes. -/
inductive IsQuoted : List Char → Prop where
  /-- Nothing at all. -/
  | nil : IsQuoted []
  /-- A character that stands for itself. -/
  | plain {c : Char} {s : List Char} (quote : c ≠ '"') (slash : c ≠ '\\')
    (control : ¬ c.toNat < 0x20) (rest : IsQuoted s) : IsQuoted (c :: s)
  /-- A letter after a backslash. -/
  | short {letter c : Char} {s : List Char} (h : shortEscape? letter = some c)
    (rest : IsQuoted s) : IsQuoted ('\\' :: letter :: s)
  /-- A code unit after a backslash. -/
  | unit {ds s : List Char} {n : Nat} (h : GivesUnit ds n) (rest : IsQuoted s) :
    IsQuoted ('\\' :: 'u' :: (ds ++ s))

/-- A text between quotes stands for characters. -/
inductive Unescapes : List Char → List Char → Prop where
  /-- Nothing stands for nothing. -/
  | nil : Unescapes [] []
  /-- A character stands for itself. -/
  | plain {c : Char} {s cs : List Char} (quote : c ≠ '"') (slash : c ≠ '\\')
    (control : ¬ c.toNat < 0x20) (rest : Unescapes s cs) : Unescapes (c :: s) (c :: cs)
  /-- A letter after a backslash. -/
  | short {letter c : Char} {s cs : List Char} (h : shortEscape? letter = some c)
    (rest : Unescapes s cs) : Unescapes ('\\' :: letter :: s) (c :: cs)
  /-- A code unit that is a character. -/
  | unit {ds s cs : List Char} {n : Nat} (h : GivesUnit ds n) (not_low : isLowUnit n = false)
    (not_high : isHighUnit n = false) (rest : Unescapes s cs) :
    Unescapes ('\\' :: 'u' :: (ds ++ s)) (Char.ofNat n :: cs)
  /-- Two code units that make up a character. -/
  | pair {ds es s cs : List Char} {n m : Nat} (first : GivesUnit ds n)
    (high : isHighUnit n = true) (second : GivesUnit es m) (low : isLowUnit m = true)
    (rest : Unescapes s cs) :
    Unescapes ('\\' :: 'u' :: (ds ++ '\\' :: 'u' :: (es ++ s))) (ofUnitPair n m :: cs)

theorem Unescapes.isQuoted {cs : List Char} (h : Unescapes s cs) : IsQuoted s := by
  induction h with
  | nil => exact .nil
  | plain quote slash control _ ih => exact .plain quote slash control ih
  | short h _ ih => exact .short h ih
  | unit h _ _ _ ih => exact .unit h ih
  | pair first _ second _ _ ih => exact .unit first (.unit second ih)

/-! ### Escapes -/

theorem length_le_byteCount (s : List Char) : s.length ≤ byteCount s := by
  have hfold : ∀ (s : List Char) (k : Nat),
      k + s.length ≤ s.foldl (fun n c => n + c.utf8Size) k := by
    intro s
    induction s with
    | nil => exact fun k => Nat.le_refl k
    | cons c s ih =>
      intro k
      have hsize := c.utf8Size_pos
      have hrest := ih (k + c.utf8Size)
      rw [List.length_cons, List.foldl_cons]
      omega
  exact Nat.le_trans (Nat.le_add_left _ _) (hfold s 0)

theorem readUnit_append {ds : List Char} {n : Nat} (h : GivesUnit ds n) (s : List Char) :
    readUnit (ds ++ s) = .ok (n, s) := by
  have hbytes := length_le_byteCount (ds ++ s)
  have hlength := h.length
  rw [List.length_append] at hbytes
  have htake : (ds ++ s).take 4 = ds := by rw [← hlength, List.take_left]
  have hdrop : (ds ++ s).drop 4 = s := by rw [← hlength, List.drop_left]
  unfold readUnit
  rw [if_neg (by omega), htake, hdrop, h.value, if_neg (by omega)]

theorem exists_of_readUnit {n : Nat} {rest : List Char} (h : readUnit s = .ok (n, rest)) :
    ∃ ds, GivesUnit ds n ∧ s = ds ++ rest := by
  unfold readUnit at h
  split at h
  · cases h
  · split at h
    · cases h
    · split at h
      · next hlength _ _ hvalue =>
        cases h
        have htake : (s.take 4).length = 4 := by
          rw [List.length_take] at hlength ⊢
          omega
        exact ⟨s.take 4, ⟨htake, hvalue⟩, (List.take_append_drop 4 s).symm⟩
      · cases h

theorem ne_of_shortEscape? {letter : Char} (h : shortEscape? letter = some c) : letter ≠ 'u' := by
  rintro rfl
  cases h

theorem readEscape_short {letter : Char} (h : shortEscape? letter = some c) (s : List Char) :
    readEscape (letter :: s) = .ok (c, s) := by
  have hletter := ne_of_shortEscape? h
  rw [readEscape.eq_3 _ _ hletter, h]

theorem passEscape_short {letter : Char} (h : shortEscape? letter = some c) (s : List Char) :
    passEscape (letter :: s) = .ok s := by
  have hletter := ne_of_shortEscape? h
  rw [passEscape.eq_3 _ _ hletter, h]
  rfl

theorem readEscape_unit {ds : List Char} {n : Nat} (h : GivesUnit ds n)
    (hlow : isLowUnit n = false) (hhigh : isHighUnit n = false) (s : List Char) :
    readEscape ('u' :: (ds ++ s)) = .ok (Char.ofNat n, s) := by
  rw [readEscape, readUnit_append h, ok_bind]
  simp [hlow, hhigh]

theorem not_isLowUnit_of_isHighUnit {n : Nat} (h : isHighUnit n = true) : isLowUnit n = false := by
  simp only [isHighUnit, isLowUnit, Bool.and_eq_true, decide_eq_true_eq, Bool.and_eq_false_iff,
    decide_eq_false_iff_not] at h ⊢
  omega

theorem readEscape_pair {ds es : List Char} {n m : Nat} (hds : GivesUnit ds n)
    (hhigh : isHighUnit n = true) (hes : GivesUnit es m) (hlow : isLowUnit m = true)
    (s : List Char) :
    readEscape ('u' :: (ds ++ '\\' :: 'u' :: (es ++ s))) = .ok (ofUnitPair n m, s) := by
  rw [readEscape, readUnit_append hds, ok_bind]
  simp [not_isLowUnit_of_isHighUnit hhigh, hhigh, readLowUnit, readUnit_append hes, hlow, ok_bind]

/-- What is read after a backslash is an escape. -/
theorem exists_of_readEscape {rest : List Char} (h : readEscape s = .ok (c, rest)) :
    ∃ letters, s = letters ++ rest ∧
      ∀ t cs, Unescapes t cs → Unescapes ('\\' :: (letters ++ t)) (c :: cs) := by
  unfold readEscape at h
  split at h
  · cases h
  · next s =>
    obtain ⟨⟨n, s'⟩, hunit, hchar⟩ := bind_eq_ok_iff.mp h
    obtain ⟨ds, hds, rfl⟩ := exists_of_readUnit hunit
    dsimp only at hchar
    split at hchar
    · cases hchar
    · next hlow =>
      split at hchar
      · next hhigh =>
        obtain ⟨⟨m, s''⟩, hlowUnit, hpair⟩ := bind_eq_ok_iff.mp hchar
        obtain ⟨rfl, rfl⟩ := Prod.mk.inj (Except.ok.inj hpair)
        unfold readLowUnit at hlowUnit
        split at hlowUnit
        · cases hlowUnit
        · cases hlowUnit
        · next s' =>
          obtain ⟨⟨m', s''⟩, hunit', hlow⟩ := bind_eq_ok_iff.mp hlowUnit
          obtain ⟨es, hes, rfl⟩ := exists_of_readUnit hunit'
          dsimp only at hlow
          split at hlow
          · next hlow' =>
            cases hlow
            refine ⟨'u' :: (ds ++ '\\' :: 'u' :: es), by simp, fun t cs ht => ?_⟩
            simpa using Unescapes.pair hds hhigh hes hlow' ht
          · cases hlow
        · cases hlowUnit
      · next hhigh =>
        cases hchar
        refine ⟨'u' :: ds, rfl, fun t cs ht => ?_⟩
        exact .unit hds (Bool.eq_false_iff.mpr hlow) (Bool.eq_false_iff.mpr hhigh) ht
  · next letter s _ =>
    split at h
    · next d hd =>
      cases h
      exact ⟨[letter], rfl, fun t cs ht => .short hd ht⟩
    · cases h

/-! ### Reading -/

/-- What may stand between quotes is passed over. -/
theorem passContent_append (h : IsQuoted s) (rest : List Char) (hfuel : s.length < fuel) :
    passContent fuel (s ++ '"' :: rest) = .ok rest := by
  obtain ⟨fuel, rfl⟩ := Nat.exists_eq_add_one.mpr (Nat.zero_lt_of_lt hfuel)
  induction h generalizing fuel with
  | nil => rfl
  | @plain c s hquote hslash hcontrol _ ih =>
    simp only [List.length_cons] at hfuel
    obtain ⟨fuel, rfl⟩ := Nat.exists_eq_add_one.mpr (by omega : 0 < fuel)
    rw [List.cons_append, passContent.eq_5 _ _ _ hquote hslash, if_neg hcontrol, ih fuel (by omega)]
  | @short letter c s h _ ih =>
    simp only [List.length_cons] at hfuel
    obtain ⟨fuel, rfl⟩ := Nat.exists_eq_add_one.mpr (by omega : 0 < fuel)
    rw [List.cons_append, List.cons_append, passContent, passEscape_short h, ok_bind,
      ih fuel (by omega)]
  | @unit ds s n h _ ih =>
    simp only [List.length_cons, List.length_append] at hfuel
    obtain ⟨fuel, rfl⟩ := Nat.exists_eq_add_one.mpr (by omega : 0 < fuel)
    rw [List.cons_append, List.cons_append, List.append_assoc, passContent, passEscape,
      readUnit_append h]
    exact ih fuel (by omega)

/-- What stands for characters is read as these characters. -/
theorem readContent_append {cs : List Char} (h : Unescapes s cs) (rest : List Char)
    (hfuel : s.length < fuel) : readContent fuel (s ++ '"' :: rest) = .ok (cs, rest) := by
  obtain ⟨fuel, rfl⟩ := Nat.exists_eq_add_one.mpr (Nat.zero_lt_of_lt hfuel)
  induction h generalizing fuel with
  | nil => rfl
  | @plain c s cs hquote hslash hcontrol _ ih =>
    simp only [List.length_cons] at hfuel
    obtain ⟨fuel, rfl⟩ := Nat.exists_eq_add_one.mpr (by omega : 0 < fuel)
    rw [List.cons_append, readContent.eq_5 _ _ _ hquote hslash, if_neg hcontrol,
      ih fuel (by omega), ok_bind]
  | @short letter c s cs h _ ih =>
    simp only [List.length_cons] at hfuel
    obtain ⟨fuel, rfl⟩ := Nat.exists_eq_add_one.mpr (by omega : 0 < fuel)
    rw [List.cons_append, List.cons_append, readContent, readEscape_short h, ok_bind]
    dsimp only
    rw [ih fuel (by omega), ok_bind]
  | @unit ds s cs n h hlow hhigh _ ih =>
    simp only [List.length_cons, List.length_append] at hfuel
    obtain ⟨fuel, rfl⟩ := Nat.exists_eq_add_one.mpr (by omega : 0 < fuel)
    rw [List.cons_append, List.cons_append, List.append_assoc, readContent,
      readEscape_unit h hlow hhigh, ok_bind]
    dsimp only
    rw [ih fuel (by omega), ok_bind]
  | @pair ds es s cs n m hds hhigh hes hlow _ ih =>
    simp only [List.length_cons, List.length_append] at hfuel
    obtain ⟨fuel, rfl⟩ := Nat.exists_eq_add_one.mpr (by omega : 0 < fuel)
    simp only [List.cons_append, List.append_assoc]
    rw [readContent, readEscape_pair hds hhigh hes hlow, ok_bind]
    dsimp only
    rw [ih fuel (by omega), ok_bind]

/-- What is read as characters stands for them. -/
theorem exists_of_readContent {cs rest : List Char} (h : readContent fuel s = .ok (cs, rest)) :
    ∃ t, Unescapes t cs ∧ s = t ++ '"' :: rest := by
  induction fuel generalizing s cs with
  | zero => cases h
  | succ fuel ih =>
    unfold readContent at h
    split at h
    · cases h
    · cases h
    · next heq =>
      cases h
      cases heq
      exact ⟨[], .nil, rfl⟩
    · next heq =>
      cases heq
      obtain ⟨⟨c, s'⟩, hescape, hmore⟩ := bind_eq_ok_iff.mp h
      obtain ⟨⟨cs', rest'⟩, hrest, hcs⟩ := bind_eq_ok_iff.mp hmore
      cases hcs
      obtain ⟨letters, rfl, hletters⟩ := exists_of_readEscape hescape
      obtain ⟨t, ht, rfl⟩ := ih hrest
      exact ⟨'\\' :: (letters ++ t), hletters t cs' ht, by simp⟩
    · next c s' hquote hslash heq =>
      cases heq
      split at h
      · cases h
      · next hcontrol =>
        obtain ⟨⟨cs', rest'⟩, hrest, hcs⟩ := bind_eq_ok_iff.mp h
        cases hcs
        obtain ⟨t, ht, rfl⟩ := ih hrest
        exact ⟨c :: t, .plain hquote hslash hcontrol ht, rfl⟩

/-- The end of what stands between quotes is found in one way. -/
theorem quoted_append_inj {t rest rest' : List Char} (hs : IsQuoted s) (ht : IsQuoted t)
    (h : s ++ '"' :: rest = t ++ '"' :: rest') : s = t := by
  have hpass := passContent_append hs rest (by omega : s.length < s.length + t.length + 1)
  rw [h, passContent_append ht rest' (by omega)] at hpass
  cases hpass
  exact List.append_cancel_right h

/-- **What stands for characters is read as the text of these characters**, from after its opening
quote. -/
theorem readText_unescapes {cs : List Char} (h : Unescapes s cs) (rest : List Char) :
    readText (s ++ '"' :: rest) = (Leaf.ok (String.ofList cs), rest) := by
  have hfuel : s.length < (s ++ '"' :: rest).length + 1 := by
    rw [List.length_append]
    omega
  unfold readText
  rw [readContent_append h rest hfuel, passContent_append h.isQuoted rest hfuel]
  rfl

/-- **What may stand between quotes is passed over, and read only as what it stands for.** -/
theorem readText_isQuoted (h : IsQuoted s) (rest : List Char) :
    ∃ leaf, (Ensures leaf.content fun text => Unescapes s text.toList) ∧ leaf.passed = .ok () ∧
      readText (s ++ '"' :: rest) = (leaf, rest) := by
  have hfuel : s.length < (s ++ '"' :: rest).length + 1 := by
    rw [List.length_append]
    omega
  unfold readText
  rw [passContent_append h rest hfuel]
  refine ⟨_, ?_, rfl, rfl⟩
  refine Ensures.map fun read hread => ?_
  obtain ⟨t, ht, heq⟩ := exists_of_readContent hread
  rw [quoted_append_inj h ht.isQuoted heq, String.toList_ofList]
  exact ht

/-! ### Written texts -/

/-- A written character stands for the one it is. -/
theorem WrittenAs.unescapes {cs : List Char} (h : WrittenAs c letters) (hs : Unescapes s cs) :
    Unescapes (letters ++ s) (c :: cs) := by
  cases h with
  | plain hquote hslash hcontrol => exact .plain hquote hslash hcontrol hs
  | short h => exact .short h hs
  | number h =>
    have hunit : GivesUnit ['0', '0', hexDigit (c.toNat / 16), hexDigit (c.toNat % 16)] c.toNat :=
      ⟨rfl, hexValue?_control c.toNat h⟩
    have hlow : isLowUnit c.toNat = false := by
      simp [isLowUnit]
      omega
    have hhigh : isHighUnit c.toNat = false := by
      simp [isHighUnit]
      omega
    have hunescapes := Unescapes.unit hunit hlow hhigh hs
    rwa [Char.ofNat_toNat] at hunescapes

/-- What is written for a text stands for it. -/
theorem unescapes_flatMap (cs : List Char) : Unescapes (cs.flatMap escapeChar) cs := by
  induction cs with
  | nil => exact .nil
  | cons c cs ih => exact (writtenAs_escapeChar c).unescapes ih

end Conditions.Json
