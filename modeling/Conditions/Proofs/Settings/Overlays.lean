import Conditions.Proofs.Settings.Overrides
import Conditions.Proofs.Settings.Texts

/-!
# Variables as layers over settings

The variables are layers: those that are set lie over the settings, and where none is set the
settings show through. So two layers are one, the upper before the lower, and a layer laid twice is
a layer laid once (`override_overlay`). The four variables differ in what their texts say and in
where that goes; `SettingVariable` is the family of the four, and everything is said of a member of
it.
-/

namespace Conditions

/-- The variables that settings depend on. -/
inductive SettingVariable where
  /-- The order of operands. -/
  | ordering
  /-- The greatest depth. -/
  | maxDepth
  /-- The refusal of unknown tokens. -/
  | strict
  /-- The meaning of capitals in tokens. -/
  | caseInsensitive
  deriving DecidableEq

namespace SettingVariable

/-- The variables in the order in which they are read. -/
def all : List SettingVariable := [ordering, maxDepth, strict, caseInsensitive]

/-- The name of a variable. -/
def name : SettingVariable → String
  | ordering => orderingVariable
  | maxDepth => depthVariable
  | strict => strictVariable
  | caseInsensitive => caseVariable

/-- What a variable sets. -/
def Value : SettingVariable → Type
  | ordering => OrderingMode
  | maxDepth => Option Nat
  | strict => Bool
  | caseInsensitive => Bool

/-- The setting that a variable is for. -/
def get : (v : SettingVariable) → Settings → v.Value
  | ordering, settings => settings.ordering
  | maxDepth, settings => settings.maxDepth
  | strict, settings => settings.resolver.strict
  | caseInsensitive, settings => settings.resolver.caseInsensitive

/-- What the text of a variable says. -/
def Names : (v : SettingVariable) → String → v.Value → Prop
  | ordering, text, mode => NamesOrdering text mode
  | maxDepth, text, depth => NamesDepth text depth
  | strict, text, flag => NamesFlag text flag
  | caseInsensitive, text, flag => NamesFlag text flag

/-- A text says something for a variable. -/
def Admits (v : SettingVariable) (text : String) : Prop := ∃ value, v.Names text value

/-- The error of a variable with a text that says nothing. -/
def error : SettingVariable → String → SettingsError
  | ordering, text => .unknownOrdering (lowerAscii (trim text))
  | maxDepth, text => .badDepth (trim text)
  | strict, text => .badFlag strictVariable (lowerAscii (trim text))
  | caseInsensitive, text => .badFlag caseVariable (lowerAscii (trim text))

/-- How the text of a variable is read. -/
def parse : (v : SettingVariable) → String → Except SettingsError v.Value
  | ordering => parseOrdering
  | maxDepth => parseDepth
  | strict => parseFlag strictVariable
  | caseInsensitive => parseFlag caseVariable

variable {v : SettingVariable} {text : String}

theorem parse_eq_ok_iff {value : v.Value} : v.parse text = .ok value ↔ v.Names text value := by
  cases v with
  | ordering =>
    show parseOrdering text = .ok value ↔ NamesOrdering text value
    exact parseOrdering_eq_ok_iff
  | maxDepth =>
    show parseDepth text = .ok value ↔ NamesDepth text value
    exact parseDepth_eq_ok_iff
  | strict =>
    show parseFlag strictVariable text = .ok value ↔ NamesFlag text value
    exact parseFlag_eq_ok_iff
  | caseInsensitive =>
    show parseFlag caseVariable text = .ok value ↔ NamesFlag text value
    exact parseFlag_eq_ok_iff

theorem parse_eq_error {error : SettingsError} (h : v.parse text = .error error) :
    error = v.error text := by
  cases v with
  | ordering => exact parseOrdering_eq_error h
  | maxDepth => exact parseDepth_eq_error h
  | strict => exact parseFlag_eq_error h
  | caseInsensitive => exact parseFlag_eq_error h

/-- A text that is not read is refused with the error of its variable. -/
theorem errorOf?_parse_eq_some_iff {error : SettingsError} :
    errorOf? (v.parse text) = some error ↔ ¬v.Admits text ∧ error = v.error text := by
  rw [errorOf?_eq_some_iff]
  constructor
  · intro h
    refine ⟨fun ⟨value, hvalue⟩ => ?_, parse_eq_error h⟩
    cases h.symm.trans (parse_eq_ok_iff.mpr hvalue)
  · rintro ⟨hrefused, rfl⟩
    cases hparse : v.parse text with
    | ok value => exact absurd ⟨value, parse_eq_ok_iff.mp hparse⟩ hrefused
    | error error => rw [parse_eq_error hparse]

theorem errorOf?_parse_eq_none_iff : errorOf? (v.parse text) = none ↔ v.Admits text := by
  rw [errorOf?_eq_none_iff]
  exact exists_congr fun value => parse_eq_ok_iff

end SettingVariable

/-! ### One variable -/

section
variable {α : Type} {parse : String → Except SettingsError α} {old mid new : α}
  {lower upper : Option String}

theorem overlaid_none_iff : Overlaid parse old none new ↔ new = old := by
  rw [← overridden_eq_ok_iff]
  exact ⟨fun h => (Except.ok.inj h).symm, fun h => congrArg Except.ok h.symm⟩

theorem overlaid_some_iff {text : String} :
    Overlaid parse old (some text) new ↔ parse text = .ok new := overridden_eq_ok_iff.symm

/-- Two layers are one, the upper before the lower. -/
theorem Overlaid.trans (h : Overlaid parse old lower mid) (h' : Overlaid parse mid upper new) :
    Overlaid parse old (upper.or lower) new := by
  cases h' with
  | unset => exact h
  | set hparse => exact .set hparse

/-- What is laid over itself does not change. -/
theorem Overlaid.again (h : Overlaid parse old lower new) : Overlaid parse new lower new := by
  cases h with
  | unset => exact .unset
  | set hparse => exact .set hparse

end

/-! ### All variables -/

/-- A variable is set to a text that says nothing for it, and those read before it are not. -/
structure FirstRefused (lookup : String → Option String) (v : SettingVariable) (text : String) :
    Prop where
  set : lookup v.name = some text
  refused : ¬v.Admits text
  first : ∃ before after, SettingVariable.all = before ++ v :: after ∧
    ∀ w ∈ before, ∀ text, lookup w.name = some text → w.Admits text

namespace Settings

variable {old mid new : Settings} {lookup lower upper : String → Option String}

theorem overlay_iff : Overlay lookup old new ↔
    (∀ v : SettingVariable, Overlaid v.parse (v.get old) (lookup v.name) (v.get new)) ∧
      new.resolver.aliases = old.resolver.aliases := by
  constructor
  · rintro ⟨hordering, hdepth, hstrict, hcase, haliases⟩
    refine ⟨fun v => ?_, haliases⟩
    cases v with
    | ordering => exact hordering
    | maxDepth => exact hdepth
    | strict => exact hstrict
    | caseInsensitive => exact hcase
  · rintro ⟨h, haliases⟩
    exact ⟨h .ordering, h .maxDepth, h .strict, h .caseInsensitive, haliases⟩

theorem Overlay.trans (h : Overlay lower old mid) (h' : Overlay upper mid new) :
    Overlay (fun name => (upper name).or (lower name)) old new := by
  rw [overlay_iff] at h h' ⊢
  exact ⟨fun v => (h.1 v).trans (h'.1 v), h'.2.trans h.2⟩

theorem Overlay.again (h : Overlay lookup old new) : Overlay lookup new new := by
  rw [overlay_iff] at h ⊢
  exact ⟨fun v => (h.1 v).again, rfl⟩

theorem variableErrors_eq (lookup : String → Option String) :
    variableErrors lookup = SettingVariable.all.filterMap fun v =>
      (lookup v.name).bind fun text => errorOf? (v.parse text) := by
  have hvariables : settingVariables = SettingVariable.all.map fun v =>
      (v.name, fun text => errorOf? (v.parse text)) := rfl
  rw [variableErrors, hvariables, List.filterMap_map]
  rfl

/-- The error of a variable that is set. -/
theorem bind_errorOf?_eq_some_iff {v : SettingVariable} {error : SettingsError} :
    ((lookup v.name).bind fun text => errorOf? (v.parse text)) = some error ↔
      ∃ text, lookup v.name = some text ∧ ¬v.Admits text ∧ error = v.error text := by
  rw [Option.bind_eq_some_iff]
  exact exists_congr fun text => and_congr_right fun _ =>
    SettingVariable.errorOf?_parse_eq_some_iff

theorem bind_errorOf?_eq_none_iff {v : SettingVariable} :
    ((lookup v.name).bind fun text => errorOf? (v.parse text)) = none ↔
      ∀ text, lookup v.name = some text → v.Admits text := by
  rw [Option.bind_eq_none_iff]
  exact forall_congr' fun text => imp_congr_right fun _ =>
    SettingVariable.errorOf?_parse_eq_none_iff

/-- The first variable that is set to nothing it admits is the error. -/
theorem override_eq_error_iff_firstRefused {error : SettingsError} :
    old.override lookup = .error error ↔
      ∃ v text, FirstRefused lookup v text ∧ error = v.error text := by
  rw [override_eq_error_iff, variableErrors_eq, List.head?_filterMap, List.findSome?_eq_some_iff]
  constructor
  · rintro ⟨before, v, after, hall, herror, hbefore⟩
    obtain ⟨text, hset, hrefused, rfl⟩ := bind_errorOf?_eq_some_iff.mp herror
    exact ⟨v, text, ⟨hset, hrefused, before, after, hall,
      fun w hw => bind_errorOf?_eq_none_iff.mp (hbefore w hw)⟩, rfl⟩
  · rintro ⟨v, text, ⟨hset, hrefused, before, after, hall, hbefore⟩, rfl⟩
    exact ⟨before, v, after, hall, bind_errorOf?_eq_some_iff.mpr ⟨text, hset, hrefused, rfl⟩,
      fun w hw => bind_errorOf?_eq_none_iff.mpr (hbefore w hw)⟩

theorem exists_override_iff_admits :
    (∃ new, old.override lookup = .ok new) ↔
      ∀ (v : SettingVariable) text, lookup v.name = some text → v.Admits text := by
  rw [exists_override_iff, variableErrors_eq, List.filterMap_eq_nil_iff]
  constructor
  · intro h v
    refine bind_errorOf?_eq_none_iff.mp (h v ?_)
    cases v <;> decide
  · exact fun h v _ => bind_errorOf?_eq_none_iff.mpr (h v)

/-- **Variables are layers over settings.** -/
theorem override_overlay (old : Settings) (lookup : String → Option String) :
    -- whether they can be written is no matter of the settings, and the first refused is the error
    ((∃ new, old.override lookup = .ok new) ↔
      ∀ (v : SettingVariable) text, lookup v.name = some text → v.Admits text) ∧
    (∀ error, old.override lookup = .error error ↔
      ∃ v text, FirstRefused lookup v text ∧ error = v.error text) ∧
    -- a setting is what its variable says, whatever it was, or stays if the variable is not set
    (∀ new, old.override lookup = .ok new →
      (∀ v : SettingVariable, lookup v.name = none → v.get new = v.get old) ∧
      (∀ (v : SettingVariable) text, lookup v.name = some text → v.Names text (v.get new) ∧
        ∀ (old' new' : Settings), old'.override lookup = .ok new' → v.get new' = v.get new) ∧
      new.resolver.aliases = old.resolver.aliases) ∧
    -- two layers are one, the upper before the lower
    (∀ upper new, (old.override lookup >>= fun mid => mid.override upper) = .ok new →
      old.override (fun name => (upper name).or (lookup name)) = .ok new) ∧
    -- twice is once
    (old.override lookup >>= fun new => new.override lookup) = old.override lookup := by
  refine ⟨exists_override_iff_admits, fun error => override_eq_error_iff_firstRefused, ?_, ?_, ?_⟩
  · intro new hnew
    obtain ⟨hfields, haliases⟩ := overlay_iff.mp (override_eq_ok_iff.mp hnew)
    refine ⟨fun v hunset => ?_, fun v text hset => ?_, haliases⟩
    · exact overlaid_none_iff.mp (hunset ▸ hfields v)
    · have hread := overlaid_some_iff.mp (hset ▸ hfields v)
      refine ⟨SettingVariable.parse_eq_ok_iff.mp hread, fun old' new' hnew' => ?_⟩
      have hfields' := (overlay_iff.mp (override_eq_ok_iff.mp hnew')).1
      exact Except.ok.inj ((overlaid_some_iff.mp (hset ▸ hfields' v)).symm.trans hread)
  · intro upper new h
    obtain ⟨mid, hmid, hnew⟩ := bind_eq_ok_iff.mp h
    exact override_eq_ok_iff.mpr
      ((override_eq_ok_iff.mp hmid).trans (override_eq_ok_iff.mp hnew))
  · cases hnew : old.override lookup with
    | error error => rfl
    | ok new => exact override_eq_ok_iff.mpr (override_eq_ok_iff.mp hnew).again

end Settings

end Conditions
