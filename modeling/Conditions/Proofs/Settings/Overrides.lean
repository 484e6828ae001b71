import Conditions.Proofs.Results
import Conditions.Settings.Basic

/-!
# Variables written over settings

Whether the variables can be written over settings depends on the variables alone: each that is set
has to have a value, and of those that have none the first is the error (`override_eq_error_iff`).
Otherwise each setting is what its variable says, or stays as it is if the variable is not set, and
the aliases stay (`override_eq_ok_iff`).
-/

namespace Conditions

variable {α : Type}

/-! ### One setting -/

/-- A setting after its variable, by what a text is read as, has been written over an old one. -/
inductive Overlaid (parse : String → Except SettingsError α) (old : α) : Option String → α → Prop
  /-- Where the variable is not set the old setting stays. -/
  | unset : Overlaid parse old none old
  /-- Where it is set the old setting is no matter. -/
  | set {text : String} {value : α} : parse text = .ok value → Overlaid parse old (some text) value

theorem Overlaid.unique {parse : String → Except SettingsError α} {old value value' : α}
    {text? : Option String} (h : Overlaid parse old text? value)
    (h' : Overlaid parse old text? value') : value = value' := by
  cases h with
  | unset =>
    cases h'
    rfl
  | set hparse =>
    cases h' with
    | set hparse' => exact Except.ok.inj (hparse.symm.trans hparse')

theorem overridden_eq_ok_iff {parse : String → Except SettingsError α} {old value : α}
    {text? : Option String} :
    overridden parse old text? = .ok value ↔ Overlaid parse old text? value := by
  constructor
  · intro h
    cases text? with
    | none =>
      cases h
      exact .unset
    | some text => exact .set h
  · rintro (_ | h)
    · rfl
    · exact h

theorem errorOf?_overridden (parse : String → Except SettingsError α) (old : α)
    (text? : Option String) :
    errorOf? (overridden parse old text?) = text?.bind fun text => errorOf? (parse text) := by
  cases text? <;> rfl

/-! ### All settings -/

/-- The variables that settings depend on, in the order in which they are read, each with the error
of a text that is no value for it. -/
def settingVariables : List (String × (String → Option SettingsError)) :=
  [(orderingVariable, fun text => errorOf? (parseOrdering text)),
    (depthVariable, fun text => errorOf? (parseDepth text)),
    (strictVariable, fun text => errorOf? (parseFlag strictVariable text)),
    (caseVariable, fun text => errorOf? (parseFlag caseVariable text))]

/-- The errors of the variables that are set to no value, in order. -/
def variableErrors (lookup : String → Option String) : List SettingsError :=
  settingVariables.filterMap fun entry => (lookup entry.1).bind entry.2

/-- Settings after the variables have been written over old ones. -/
structure Settings.Overlay (lookup : String → Option String) (old new : Settings) : Prop where
  ordering : Overlaid parseOrdering old.ordering (lookup orderingVariable) new.ordering
  maxDepth : Overlaid parseDepth old.maxDepth (lookup depthVariable) new.maxDepth
  strict : Overlaid (parseFlag strictVariable) old.resolver.strict (lookup strictVariable)
    new.resolver.strict
  caseInsensitive : Overlaid (parseFlag caseVariable) old.resolver.caseInsensitive
    (lookup caseVariable) new.resolver.caseInsensitive
  aliases : new.resolver.aliases = old.resolver.aliases

namespace Settings

variable {lookup : String → Option String} {old new : Settings}

theorem override_eq_ok_iff : old.override lookup = .ok new ↔ Overlay lookup old new := by
  simp only [override, bind_eq_ok_iff, overridden_eq_ok_iff]
  constructor
  · rintro ⟨ordering, hordering, maxDepth, hdepth, strict, hstrict, caseInsensitive, hcase, ⟨⟩⟩
    exact ⟨hordering, hdepth, hstrict, hcase, rfl⟩
  · rintro ⟨hordering, hdepth, hstrict, hcase, haliases⟩
    refine ⟨_, hordering, _, hdepth, _, hstrict, _, hcase, ?_⟩
    rw [← haliases]

theorem head?_filterMap_cons {β : Type} (f : β → Option SettingsError) (b : β) (bs : List β) :
    ((b :: bs).filterMap f).head? = (f b).or (bs.filterMap f).head? := by
  rw [List.filterMap_cons]
  cases f b <;> rfl

/-- **Whether variables can be written over settings is no matter of the settings**, and if they
cannot the first of them that has no value is the error. -/
theorem errorOf?_override (old : Settings) (lookup : String → Option String) :
    errorOf? (old.override lookup) = (variableErrors lookup).head? := by
  simp only [variableErrors, settingVariables, head?_filterMap_cons, List.filterMap_nil,
    ← errorOf?_overridden parseOrdering old.ordering, ← errorOf?_overridden parseDepth old.maxDepth,
    ← errorOf?_overridden (parseFlag strictVariable) old.resolver.strict,
    ← errorOf?_overridden (parseFlag caseVariable) old.resolver.caseInsensitive]
  exact errorOf?_bind fun _ => errorOf?_bind fun _ => errorOf?_bind fun _ => errorOf?_bind fun _ =>
    rfl

theorem override_eq_error_iff {error : SettingsError} :
    old.override lookup = .error error ↔ (variableErrors lookup).head? = some error := by
  rw [← errorOf?_eq_some_iff, errorOf?_override]

/-- The order of operands is read first. -/
theorem head?_variableErrors {text : String} {error : SettingsError}
    (hset : lookup orderingVariable = some text) (herror : parseOrdering text = .error error) :
    (variableErrors lookup).head? = some error := by
  simp only [variableErrors, settingVariables, head?_filterMap_cons, hset, Option.bind_some,
    errorOf?_eq_some_iff.mpr herror, Option.some_or]

theorem exists_override_iff :
    (∃ new, old.override lookup = .ok new) ↔ variableErrors lookup = [] := by
  rw [← errorOf?_eq_none_iff, errorOf?_override, List.head?_eq_none_iff]

end Settings

end Conditions
