import Conditions.Condition.Yaml
import Conditions.Evaluation
import Conditions.Format
import Conditions.Record.Read
import Conditions.Settings.Yaml

/-!
# Loading

Conditions, records and settings from texts in either format, and from files in the format that the
name of the file tells. `Failure` gathers all that can go wrong.
-/

namespace Conditions

/-- Why a file gives no text. -/
inductive FileFault where
  /-- There is no such file. -/
  | notFound
  /-- The bytes of the file are no text. -/
  | notText
  deriving DecidableEq

/-- The texts of files by path. -/
abbrev Files := String → Except FileFault String

/-- Why there is no answer. -/
inductive Failure where
  /-- A file cannot be read. -/
  | file (fault : FileFault)
  /-- A text cannot be read as JSON. -/
  | json (fault : Json.Fault)
  /-- A text cannot be read as YAML. -/
  | yaml (fault : Yaml.Fault)
  /-- A document that should hold a record holds a value of another kind. -/
  | notRecord (kind : String)
  /-- Settings are wrong. -/
  | settings (error : SettingsError)
  /-- A token has no operator. -/
  | resolve (error : ResolveError)
  /-- A condition has no verdict. -/
  | evaluation (error : EvaluationError)

/-- What is said of a failure. -/
def Failure.message : Failure → String
  | .file .notFound => "file not found"
  | .file .notText => "file is not text"
  | .json .malformed => "malformed JSON"
  | .json .mismatched => "unexpected JSON"
  | .json .truncated => "truncated JSON"
  | .yaml _ => "malformed or unexpected YAML"
  | .notRecord kind => "Invalid data record: expected an object, got " ++ kind
  | .settings error => error.message
  | .resolve error => error.message
  | .evaluation error => error.message

/-- Reads a condition from a text. -/
def Condition.parse : Format → String → Except Failure Condition
  | .json, text => (Condition.parseJson text).mapError .json
  | .yaml, text => (Condition.parseYaml text).mapError .yaml

/-- Reads a record from a text. -/
def Record.parse (format : Format) (text : String) : Except Failure Record := do
  let value ← match format with
    | .json => (Json.parse text).mapError .json
    | .yaml => (Yaml.parse text).mapError .yaml
  (Record.ofJson value).mapError .notRecord

/-- Reads settings from a text. -/
def Settings.parse (text : String) : Except Failure Settings :=
  (Settings.parseYaml text).mapError fun
    | .document fault => .yaml fault
    | .settings error => .settings error

/-! ### From files -/

/-- Reads a condition from a file. -/
def Condition.load (files : Files) (path : String) : Except Failure Condition := do
  Condition.parse (Format.ofPath path) (← (files path).mapError .file)

/-- Reads a record from a file. -/
def Record.load (files : Files) (path : String) : Except Failure Record := do
  Record.parse (Format.ofPath path) (← (files path).mapError .file)

/-- Reads settings from a file. -/
def Settings.load (files : Files) (path : String) : Except Failure Settings := do
  Settings.parse (← (files path).mapError .file)

/-- The evaluator that settings ask for, with a resolver. -/
def Settings.evaluator (settings : Settings) (resolver : Resolver) : Evaluator :=
  ⟨resolver, settings.ordering, settings.maxDepth⟩

end Conditions
