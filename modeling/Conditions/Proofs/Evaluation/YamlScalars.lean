import Conditions.Proofs.Evaluation.Walk
import Conditions.Proofs.Yaml.Members
import Conditions.Proofs.Yaml.Scalars

/-!
# Equality of scalars in YAML

A scalar equals the same scalar in another text, one being the field of a record and the other the
literal of a condition, unless it is one of the words for numbers that are not finite
(`Evaluator.evaluate_yaml_scalars`). In a record these are null, and in a condition they are
numbers; so the infinities do not equal themselves.
-/

namespace Conditions

open Yaml (Scalar nonFiniteWords scalarOf?)

namespace Evaluator

/-- **A scalar equals itself across the two readers of YAML**, unless it is plain and a word for a
number that is not finite. -/
theorem evaluate_yaml_scalars {text recordText name : String} {c : Condition} {record : Record}
    {s s' : Scalar} (hc : Condition.parse .yaml text = .ok c)
    (hrecord : Record.parse .yaml recordText = .ok record)
    (hop : standard.resolver c.op = .ok (.compare .equals)) (hproperty : c.property = some name)
    (hs : scalarOf? text "value" = some s) (hs' : scalarOf? recordText name = some s')
    (halike : s.Alike s') :
    ∃ verdict, standard.evaluate record c = .ok verdict ∧
      (verdict = true ↔ ¬(s.style = .plain ∧ s.text ∈ nonFiniteWords)) := by
  obtain ⟨v, hv, hvalue⟩ := Condition.value_of_scalarOf? hc hs
  obtain ⟨v', hv', hfield⟩ := Record.get?_of_scalarOf? hrecord hs'
  obtain rfl : v' = v := Except.ok.inj (hv'.symm.trans (halike.value_eq.trans hv))
  refine ⟨!v'.isNonFinite, ?_, ?_⟩
  · have admits : standard.Admits [] := nofun
    rw [evaluate_of_compare admits hop, comparisonHolds, hproperty, hvalue, Option.bind_some,
      hfield]
    exact congrArg _ (Yaml.equal_toJson_toLiteral v')
  · rw [Bool.not_eq_true', Bool.eq_false_iff, ne_eq, Scalar.isNonFinite_iff halike.untagged hv]

/-- A node that compares a field with a whole number in hexadecimal digits. -/
def hexText : String := "op: equals\nproperty: p\nvalue: 0x1F"

/-- A record with the same scalar. -/
def hexRecordText : String := "p: 0x1F"

theorem evaluate_yaml_scalars_hex : ∃ c record, Condition.parse .yaml hexText = .ok c ∧
    Record.parse .yaml hexRecordText = .ok record ∧ standard.evaluate record c = .ok true := by
  have hparts : (Condition.parse .yaml hexText).toOption.map (fun c => (c.op, c.property)) =
      some ("equals", some "p") := by decide +kernel
  have hsome : (Record.parse .yaml hexRecordText).toOption.isSome = true := by decide +kernel
  obtain ⟨c, hc, hparts⟩ := Option.map_eq_some_iff.mp hparts
  obtain ⟨hop, hproperty⟩ := Prod.mk.inj hparts
  obtain ⟨record, hrecord⟩ := Option.isSome_iff_exists.mp hsome
  rw [toOption_eq_some_iff] at hc hrecord
  have hs : scalarOf? hexText "value" = some ⟨none, .plain, "0x1F"⟩ := by decide +kernel
  have hs' : scalarOf? hexRecordText "p" = some ⟨none, .plain, "0x1F"⟩ := by decide +kernel
  obtain ⟨verdict, hverdict, hiff⟩ := evaluate_yaml_scalars hc hrecord (hop ▸ rfl) hproperty hs hs'
    ⟨rfl, rfl, rfl, Iff.rfl⟩
  have hfinite : "0x1F" ∉ nonFiniteWords := by decide
  rw [hiff.mpr fun h => hfinite h.2] at hverdict
  exact ⟨c, record, hc, hrecord, hverdict⟩

/-- A node that compares a field with infinity. -/
def infinityText : String := "op: equals\nproperty: p\nvalue: .inf"

/-- A record with the same scalar. -/
def infinityRecordText : String := "p: .inf"

/-- Infinity, plain in both texts, does not equal itself. -/
theorem evaluate_infinity : scalarOf? infinityText "value" = some ⟨none, .plain, ".inf"⟩ ∧
    scalarOf? infinityRecordText "p" = some ⟨none, .plain, ".inf"⟩ ∧
    ∃ c record, Condition.parse .yaml infinityText = .ok c ∧
      Record.parse .yaml infinityRecordText = .ok record ∧
      c.op = "equals" ∧ c.property = some "p" ∧ standard.evaluate record c = .ok false := by
  refine ⟨by decide +kernel, by decide +kernel, ?_⟩
  have hrun : ((Condition.parse .yaml infinityText).toOption.bind fun c =>
      (Record.parse .yaml infinityRecordText).toOption.map fun record =>
        (c.op, c.property, (standard.evaluate record c).toOption)) =
      some ("equals", some "p", some false) := by decide +kernel
  obtain ⟨c, hc, hrun⟩ := Option.bind_eq_some_iff.mp hrun
  obtain ⟨record, hrecord, hrun⟩ := Option.map_eq_some_iff.mp hrun
  obtain ⟨hop, hrun⟩ := Prod.mk.inj hrun
  obtain ⟨hproperty, hverdict⟩ := Prod.mk.inj hrun
  rw [toOption_eq_some_iff] at hc hrecord hverdict
  exact ⟨c, record, hc, hrecord, hop, hproperty, hverdict⟩

end Evaluator

end Conditions
