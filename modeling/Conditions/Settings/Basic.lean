import Conditions.Operand
import Conditions.Resolver

/-!
# Settings

What an evaluation can be set to: the order of operands, the greatest depth of a condition and the
resolver of tokens. Variables override settings one by one; a variable with a text that is no value
for it is an error, and of several the first counts.
-/

namespace Conditions

/-- The settings of an evaluation. -/
structure Settings where
  /-- The order of operands. -/
  ordering : OrderingMode := .loose
  /-- The greatest depth of a condition, if there is one. -/
  maxDepth : Option Nat := none
  /-- The resolver of tokens. -/
  resolver : ResolverSettings := {}
  deriving DecidableEq

/-- Why there are no settings. -/
inductive SettingsError where
  /-- A text names no order of operands. -/
  | unknownOrdering (text : String)
  /-- The greatest depth is zero. -/
  | zeroDepth
  /-- A text is no depth. -/
  | badDepth (text : String)
  /-- A text is no truth value. -/
  | badFlag (key text : String)
  /-- The resolver cannot be built. -/
  | resolver (error : AliasError)

/-! ### Variables -/

/-- The variable for the order of operands. -/
def orderingVariable : String := "CONDITION_ORDERING"

/-- The variable for the greatest depth. -/
def depthVariable : String := "CONDITION_MAX_DEPTH"

/-- The variable for the refusal of unknown tokens. -/
def strictVariable : String := "CONDITION_STRICT_OPERATORS"

/-- The variable for the meaning of capitals in tokens. -/
def caseVariable : String := "CONDITION_CASE_INSENSITIVE"

/-- What is said of missing settings. -/
def SettingsError.message (error : SettingsError) : String :=
  "Configuration error: " ++
    match error with
    | .unknownOrdering text => s!"unknown ordering mode '{text}'"
    | .zeroDepth => "max_depth must be a positive integer, got '0'"
    | .badDepth text => s!"{depthVariable} must be a positive integer, got '{text}'"
    | .badFlag key text => s!"{key} must be a boolean, got '{text}'"
    | .resolver error => error.message

/-- The order of operands that a text names; blanks around it and capitals do not count. -/
def parseOrdering (text : String) : Except SettingsError OrderingMode :=
  let name := lowerAscii (trim text)
  match OrderingMode.ofName? name with
  | some mode => .ok mode
  | none => .error (.unknownOrdering name)

/-- The natural number of 64 bits that a text of digits is, with or without a plus sign. -/
def parseNatural? (text : String) : Option Nat :=
  let ds := match text.toList with
    | '+' :: ds => ds
    | ds => ds
  if ds ≠ [] ∧ ds.all Char.isDigit ∧ decimalValue ds < 0x10000000000000000 then
    some (decimalValue ds)
  else none

/-- The greatest depth that a text gives; a blank text and the word none give none. -/
def parseDepth (text : String) : Except SettingsError (Option Nat) :=
  let text := trim text
  if text = "" ∨ lowerAscii text = "none" then .ok none
  else
    match (parseNatural? text).filter (0 < ·) with
    | some n => .ok (some n)
    | none => .error (.badDepth text)

/-- The truth value that the text of a variable is a word for. -/
def parseFlag (key text : String) : Except SettingsError Bool :=
  let word := lowerAscii (trim text)
  if word ∈ ["1", "true", "yes", "on"] then .ok true
  else if word ∈ ["0", "false", "no", "off"] then .ok false
  else .error (.badFlag key word)

/-- The value of a variable if it is set, and else what it would override. -/
def overridden {α : Type} (parse : String → Except SettingsError α) (old : α) :
    Option String → Except SettingsError α
  | some text => parse text
  | none => .ok old

namespace Settings

/-- Settings with those variables written over them that are set. -/
def override (settings : Settings) (lookup : String → Option String) :
    Except SettingsError Settings := do
  let ordering ← overridden parseOrdering settings.ordering (lookup orderingVariable)
  let maxDepth ← overridden parseDepth settings.maxDepth (lookup depthVariable)
  let strict ← overridden (parseFlag strictVariable) settings.resolver.strict
    (lookup strictVariable)
  let caseInsensitive ← overridden (parseFlag caseVariable) settings.resolver.caseInsensitive
    (lookup caseVariable)
  .ok { ordering, maxDepth, resolver := { settings.resolver with strict, caseInsensitive } }

/-- The table of aliases that settings ask for. -/
def aliasTable (settings : Settings) : Except SettingsError AliasTable :=
  (AliasTable.ofSettings settings.resolver).mapError .resolver

end Settings

end Conditions
