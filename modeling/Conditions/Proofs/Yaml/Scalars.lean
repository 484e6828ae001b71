import Conditions.Proofs.Comparison.Standing
import Conditions.Proofs.Number.Values
import Conditions.Yaml.ScalarValue

/-!
# One scalar as field and as literal

What a scalar stands for becomes a field of a record in one way and a literal in another. Whole
numbers are kept in a record and rounded in a literal, and what is not finite is null in a record
and a number in a literal. The first is no difference where operands are compared, the second is one
(`equal_toJson_toLiteral`). A scalar without tag stands for a number that is not finite exactly if
it is plain and one of twelve words (`Scalar.isNonFinite_iff`).
-/

namespace Conditions.Yaml

/-- The words for the infinities and for what is not a number. -/
def nonFiniteWords : List String :=
  [".inf", ".Inf", ".INF", "+.inf", "+.Inf", "+.INF"] ++
    (["-.inf", "-.Inf", "-.INF"] ++ [".nan", ".NaN", ".NAN"])

/-- Whether a value is a number that is not finite. -/
def ScalarValue.isNonFinite : ScalarValue → Bool
  | .real x => !x.isFinite
  | _ => false

/-! ### Operands -/

/-- **A value is the same operand in a record and in a condition**, unless it is a number that is
not finite. -/
theorem equal_toJson_toLiteral (v : ScalarValue) :
    (Operand.ofField (some v.toJson)).equal (.ofLiteral (some v.toLiteral)) = !v.isNonFinite := by
  cases v with
  | null => rfl
  | bool b => exact beq_self_eq_true b
  | text s => exact beq_self_eq_true s
  | whole i =>
    have hnan := (Binary64.roundsWhole_ofInt i).isNaN
    exact (Binary64.eq_iff_key hnan hnan).mpr rfl
  | real x =>
    cases hx : x.isFinite with
    | true =>
      have hnan := Binary64.isNaN_of_isFinite hx
      simp only [ScalarValue.toJson, Json.ofBinary64, ScalarValue.isNonFinite, hx]
      exact (Binary64.eq_iff_key hnan hnan).mpr rfl
    | false =>
      simp only [ScalarValue.toJson, Json.ofBinary64, ScalarValue.isNonFinite, hx]
      rfl

/-! ### Words -/

theorem isNonFinite_of_mem : ∀ s ∈ nonFiniteWords,
    (plainValue s).toOption.map ScalarValue.isNonFinite = some true := by decide +kernel

theorem mem_of_realValue? {s : String} {x : Binary64} (h : realValue? s = some x)
    (hx : x.isFinite = false) : s ∈ nonFiniteWords := by
  unfold nonFiniteWords
  unfold realValue? at h
  split at h
  · next hs => exact List.mem_append.mpr (.inl hs)
  · split at h
    · next hs => exact List.mem_append.mpr (.inr (List.mem_append.mpr (.inl hs)))
    · split at h
      · next hs => exact List.mem_append.mpr (.inr (List.mem_append.mpr (.inr hs)))
      · -- what a numeral is rounded to is finite
        have hfinite := (Option.filter_eq_some_iff.mp h).2
        rw [hx] at hfinite
        cases hfinite

theorem exists_whole_of_wholeScalar? {s : String} {v : ScalarValue}
    (h : wholeScalar? s = some (.ok v)) : ∃ i, v = .whole i := by
  unfold wholeScalar? at h
  split at h
  · next i _ =>
    split at h
    · cases h
      exact ⟨i, rfl⟩
    · cases h
  · cases h

/-- Of the plain scalars the words alone stand for a number that is not finite. -/
theorem mem_of_isNonFinite {s : String} {v : ScalarValue} (h : plainValue s = .ok v)
    (hv : v.isNonFinite = true) : s ∈ nonFiniteWords := by
  unfold plainValue at h
  split at h
  · cases h
    cases hv
  · split at h
    · cases h
      cases hv
    · next hwhole =>
      subst h
      obtain ⟨i, rfl⟩ := exists_whole_of_wholeScalar? hwhole
      cases hv
    · split at h
      · cases h
        cases hv
      · split at h
        · next x hreal =>
          cases h
          exact mem_of_realValue? hreal (by simpa [ScalarValue.isNonFinite] using hv)
        · cases h
          cases hv

theorem isNonFinite_plainValue_iff {s : String} {v : ScalarValue} (h : plainValue s = .ok v) :
    v.isNonFinite = true ↔ s ∈ nonFiniteWords := by
  refine ⟨mem_of_isNonFinite h, fun hs => ?_⟩
  have hword := isNonFinite_of_mem s hs
  rw [h] at hword
  exact Option.some.inj hword

/-! ### Scalars -/

/-- Two scalars are written alike: without a tag, with the same text, and both plain or neither. -/
structure Scalar.Alike (s s' : Scalar) : Prop where
  untagged : s.tag = none
  untagged' : s'.tag = none
  text : s'.text = s.text
  plain : s'.style = .plain ↔ s.style = .plain

variable {s s' : Scalar} {v : ScalarValue}

theorem Scalar.value_of_untagged (h : s.tag = none) :
    s.value = if s.style = .plain then plainValue s.text else .ok (.text s.text) := by
  rw [Scalar.value, h]
  rfl

/-- Scalars that are written alike stand for the same. -/
theorem Scalar.Alike.value_eq (h : s.Alike s') : s'.value = s.value := by
  rw [Scalar.value_of_untagged h.untagged, Scalar.value_of_untagged h.untagged', h.text,
    if_congr h.plain rfl rfl]

theorem Scalar.isNonFinite_iff (h : s.tag = none) (hv : s.value = .ok v) :
    v.isNonFinite = true ↔ s.style = .plain ∧ s.text ∈ nonFiniteWords := by
  rw [Scalar.value_of_untagged h] at hv
  split at hv
  · next hplain =>
    rw [isNonFinite_plainValue_iff hv]
    exact (and_iff_right hplain).symm
  · next hplain =>
    cases hv
    exact iff_of_false nofun fun h => hplain h.1

end Conditions.Yaml
