import Mathlib.Data.List.Lex
import Mathlib.Data.Nat.Order.Lemmas
import Conditions.Text.Units

/-!
# Code units tell texts apart

Of two characters, neither has code units that begin those of the other, since no character lies in
the block that the units of a pair come from; so whatever follows, the first character of a list of
units is known (`units16_append_inj`), and two texts with the same units are the same
(`textUnits_injective`).

The order of texts is the order of lists in which a proper beginning comes first
(`precedes_iff_lt`). So of two texts one precedes the other unless they are equal
(`textPrecedes_trichotomy`).
-/

namespace Conditions

/-! ### Units of a character -/

theorem units16_of_lt {c : Char} (h : c.toNat < 0x10000) : units16 c = [c.toNat] := if_pos h

theorem units16_of_le {c : Char} (h : 0x10000 ≤ c.toNat) :
    units16 c =
      [0xd800 + (c.toNat - 0x10000) / 0x400, 0xdc00 + (c.toNat - 0x10000) % 0x400] :=
  if_neg (Nat.not_lt.mpr h)

theorem units16_ne_nil (c : Char) : units16 c ≠ [] := by
  rcases Nat.lt_or_ge c.toNat 0x10000 with h | h
  · rw [units16_of_lt h]
    exact List.cons_ne_nil _ _
  · rw [units16_of_le h]
    exact List.cons_ne_nil _ _

/-- No character lies in the block of the units of pairs. -/
theorem toNat_not_surrogate (c : Char) : c.toNat < 0xd800 ∨ 0xe000 ≤ c.toNat := by
  rcases c.valid with h | ⟨h, -⟩
  · exact .inl h
  · exact .inr h

theorem toNat_lt_planes (c : Char) : c.toNat < 0x110000 := by
  rcases c.valid with h | ⟨-, h⟩
  · exact Nat.lt_trans h (by decide)
  · exact h

/-- The units of a character after which a list goes on determine the character and the rest. -/
theorem units16_append_inj {c d : Char} {u v : List Nat}
    (h : units16 c ++ u = units16 d ++ v) : c = d ∧ u = v := by
  -- the first unit of a pair is from the block in which no character lies
  have hsingle {c d : Char} {u v : List Nat} (hc : c.toNat < 0x10000) (hd : 0x10000 ≤ d.toNat) :
      units16 c ++ u ≠ units16 d ++ v := by
    rw [units16_of_lt hc, units16_of_le hd]
    intro h
    obtain ⟨hfirst, -⟩ := List.cons.inj h
    have := toNat_not_surrogate c
    have := toNat_lt_planes d
    omega
  rcases Nat.lt_or_ge c.toNat 0x10000 with hc | hc <;>
    rcases Nat.lt_or_ge d.toNat 0x10000 with hd | hd
  · rw [units16_of_lt hc, units16_of_lt hd] at h
    obtain ⟨hfirst, hrest⟩ := List.cons.inj h
    exact ⟨Char.toNat_inj.mp hfirst, hrest⟩
  · exact absurd h (hsingle hc hd)
  · exact absurd h.symm (hsingle hd hc)
  · rw [units16_of_le hc, units16_of_le hd] at h
    obtain ⟨hfirst, hpair⟩ := List.cons.inj h
    obtain ⟨hsecond, hrest⟩ := List.cons.inj hpair
    exact ⟨Char.toNat_inj.mp (by omega), hrest⟩

/-! ### Units of a text -/

/-- **Texts with the same units are the same**. -/
theorem textUnits_injective : Function.Injective textUnits := by
  intro s t h
  unfold textUnits at h
  rw [← String.toList_inj]
  generalize s.toList = cs at h ⊢
  generalize t.toList = ds at h ⊢
  induction cs generalizing ds with
  | nil =>
    cases ds with
    | nil => rfl
    | cons d ds => exact absurd (List.append_eq_nil_iff.mp h.symm).1 (units16_ne_nil d)
  | cons c cs ih =>
    cases ds with
    | nil => exact absurd (List.append_eq_nil_iff.mp h).1 (units16_ne_nil c)
    | cons d ds =>
      obtain ⟨rfl, hrest⟩ := units16_append_inj h
      rw [ih ds hrest]

/-! ### Order of lists of units -/

theorem precedes_iff_lt {u v : List Nat} : precedes u v = true ↔ u < v := by
  induction u generalizing v with
  | nil => cases v <;> simp [precedes]
  | cons a u ih =>
    cases v with
    | nil => simp [precedes]
    | cons b v =>
      rw [precedes, List.cons_lt_cons_iff]
      split
      · next h => simp [h, ih]
      · next h => simp [h]

/-- A text precedes another if its units come first in the order of lists. -/
theorem textPrecedes_iff {s t : String} : textPrecedes s t = true ↔ textUnits s < textUnits t :=
  precedes_iff_lt

theorem textPrecedes_asymm {s t : String} (h : textPrecedes s t = true) :
    textPrecedes t s = false := by
  rw [Bool.eq_false_iff]
  exact fun h' => lt_asymm (textPrecedes_iff.mp h) (textPrecedes_iff.mp h')

/-- Of two texts one precedes the other, unless they are equal. -/
theorem textPrecedes_trichotomy (s t : String) :
    textPrecedes s t = true ∨ s = t ∨ textPrecedes t s = true := by
  rw [textPrecedes_iff, textPrecedes_iff, ← textUnits_injective.eq_iff]
  exact lt_trichotomy (textUnits s) (textUnits t)

theorem textPrecedes_irrefl (s : String) : textPrecedes s s = false := by
  rw [Bool.eq_false_iff]
  exact fun h => lt_irrefl _ (textPrecedes_iff.mp h)

end Conditions
