import Conditions.Environment
import Conditions.Loading
import Conditions.Schema

/-!
# The command line

`eval` evaluates a condition on a record, `resolve` shows the operator that a token names, and
`schema` prints the schema of a condition. What a run prints and how it ends depend only on the
arguments, the files and the variables.

Arguments are read as usual: an option may be followed by its value or joined to it, two dashes end
the options, no option comes twice, and what begins with a dash is no value.
-/

namespace Conditions

/-- An option that takes a value. -/
structure OptionName where
  /-- The name after two dashes. -/
  long : String
  /-- The letter after one dash. -/
  short : Option Char := none
  deriving DecidableEq

/-- Arguments sorted into options and others. -/
structure Arguments where
  /-- The values of options by their long names. -/
  options : List (String × String) := []
  /-- The other arguments. -/
  others : List String := []
  /-- Whether help is asked for. -/
  help : Bool := false

namespace Arguments

/-- Whether an argument may be the value of the option before it. -/
def isValue (argument : String) : Bool :=
  match argument.toList with
  | '-' :: _ :: _ => false
  | _ => true

/-- Adds the value of an option. -/
def withOption (name : OptionName) (value : String) (a : Arguments) : Arguments :=
  { a with options := (name.long, value) :: a.options }

/-- The name and the value of an argument, if an equals sign joins them. -/
def splitJoined (argument : List Char) : String × Option String :=
  match argument.dropWhile (· ≠ '=') with
  | '=' :: value => (String.ofList (argument.takeWhile (· ≠ '=')), some (String.ofList value))
  | _ => (String.ofList argument, none)

/-- The option that an argument names, and the value joined to it. -/
def option? (names : List OptionName) : List Char → Option (OptionName × Option String)
  | '-' :: '-' :: argument => do
    let (long, value) := splitJoined argument
    return (← names.find? (·.long = long), value)
  | '-' :: letter :: rest => do
    let name ← names.find? (·.short = some letter)
    return (name, match rest with
      | [] => none
      | '=' :: value => some (String.ofList value)
      | value => some (String.ofList value))
  | _ => none

/-- Sorts arguments, of which some may name options; none if an option is unknown or lacks its
value. -/
def sort? (names : List OptionName) : List String → Option Arguments
  | [] => some {}
  | argument :: rest =>
    if argument = "--" then some { others := rest }
    else if argument = "--help" ∨ argument = "-h" then some { help := true }
    else if isValue argument then
      (sort? names rest).map fun a => { a with others := argument :: a.others }
    else
      match option? names argument.toList, rest with
      | some (name, some value), rest => (sort? names rest).map (·.withOption name value)
      | some (name, none), value :: rest =>
        if isValue value then (sort? names rest).map (·.withOption name value) else none
      | _, _ => none

/-- The values of an option. -/
def values (a : Arguments) (long : String) : List String :=
  (a.options.filter (·.1 = long)).map (·.2)

/-- The path that an option gives, if it comes; a path is not empty. -/
def path? (a : Arguments) (long : String) : Option (Option String) :=
  match a.values long with
  | [] => some none
  | [path] => if path = "" then none else some (some path)
  | _ => none

/-- The order of operands that an option gives, if it comes. -/
def ordering? (a : Arguments) (long : String) : Option (Option OrderingMode) :=
  match a.values long with
  | [] => some none
  | [text] => (parseOrdering text).toOption.map some
  | _ => none

end Arguments

/-! ### Commands -/

/-- What a run is to do. -/
inductive Command where
  /-- Evaluates a condition on a record, both from files. -/
  | evaluate (condition data : String) (config : Option String) (ordering : Option OrderingMode)
  /-- Shows the operator that a token names. -/
  | resolve (token : String) (config : Option String)
  /-- Prints the schema of a condition. -/
  | schema
  /-- Prints the version of the program. -/
  | version
  /-- Prints how the program is called. -/
  | help

namespace Command

/-- The option for the file of settings. -/
def configOption : OptionName := { long := "config" }

/-- The options of an evaluation. -/
def evaluateOptions : List OptionName :=
  [⟨"condition", some 'c'⟩, ⟨"data", some 'd'⟩, configOption, { long := "ordering" }]

/-- The evaluation that arguments ask for. -/
def evaluation? (a : Arguments) : Option Command := do
  let condition ← a.path? "condition"
  let data ← a.path? "data"
  let config ← a.path? "config"
  let ordering ← a.ordering? "ordering"
  if a.others ≠ [] then none
  else if a.help then return .help
  else return .evaluate (← condition) (← data) config ordering

/-- The resolution that arguments ask for. -/
def resolution? (a : Arguments) : Option Command := do
  let config ← a.path? "config"
  match a.others with
  | [] => if a.help then return .help else none
  | [token] => return if a.help then .help else .resolve token config
  | _ => none

/-- The names of the commands. -/
def names : List String := ["eval", "resolve", "schema", "help"]

/-- The command that arguments ask for; none if they are not as they should be. Help is given if
the arguments before are as they should be, even if there are too few. -/
def ofArguments? : List String → Option Command
  | "eval" :: rest => (Arguments.sort? evaluateOptions rest).bind evaluation?
  | "resolve" :: rest => (Arguments.sort? [configOption] rest).bind resolution?
  | "schema" :: rest => do
    let a ← Arguments.sort? [] rest
    if a.others ≠ [] then none else return if a.help then .help else .schema
  | ["help"] => some .help
  | ["help", name] => if name ∈ names then some .help else none
  | argument :: _ =>
    if argument = "--version" ∨ argument = "-V" then some .version
    else if argument = "--help" ∨ argument = "-h" then some .help
    else none
  | [] => none

end Command

/-! ### Runs -/

/-- How a run ends. -/
structure Ending where
  /-- The exit code. -/
  code : Nat
  /-- What is printed. -/
  output : String := ""
  /-- The line for an error. -/
  error : Option String := none
  deriving DecidableEq

/-- The line that tells of an error; of a message of several lines it has the first. -/
def errorLine (message : String) : String :=
  "Error: " ++ String.ofList (message.toList.takeWhile (· ≠ '\n'))

namespace Command

/-- A result, or the message that a file of some kind could not be loaded. -/
def loading {α : Type} (kind path : String) (result : Except Failure α) : Except String α :=
  result.mapError fun _ => s!"Failed to load {kind} {path}"

/-- The settings from a file, if one is given, with the variables written over them. -/
def settings (files : Files) (env : Environment) (config : Option String) :
    Except String Settings := do
  let settings ←
    match config with
    | some path => loading "config" path (Settings.load files path)
    | none => .ok {}
  (settings.override fun name => env.lookup name).mapError SettingsError.message

/-- The verdict of an evaluation. -/
def verdict (files : Files) (env : Environment) (condition data : String)
    (config : Option String) (ordering : Option OrderingMode) : Except String Bool := do
  let settings ← settings files env config
  let settings := { settings with ordering := ordering.getD settings.ordering }
  let c ← loading "condition" condition (Condition.load files condition)
  let record ← loading "record" data (Record.load files data)
  let table ← settings.aliasTable.mapError SettingsError.message
  ((settings.evaluator table.resolve).evaluate record c).mapError EvaluationError.message

/-- What is shown of the operator that a token names. -/
def resolution (files : Files) (env : Environment) (token : String) (config : Option String) :
    Except String String := do
  let settings ← settings files env config
  let table ← settings.aliasTable.mapError SettingsError.message
  match ← (table.resolve token).mapError ResolveError.message with
  | .unrecognized token => .ok (token ++ " (unrecognized, evaluates to false)")
  | kind => .ok kind.name

/-- What is printed of a way to call the program. -/
def usage : String := "Usage: condition-dsl <eval|resolve|schema> [OPTIONS]"

/-- What a command prints, or the message of its error. -/
def answer (files : Files) (env : Environment) : Command → Except String String
  | .evaluate condition data config ordering => do
    .ok (if ← verdict files env condition data config ordering then "true" else "false")
  | .resolve token config => resolution files env token config
  | .schema => .ok Schema.condition.pretty
  | .version => .ok "condition-dsl 0.1.0"
  | .help => .ok usage

/-- The files that a command reads. -/
def paths : Command → List String
  | .evaluate condition data config _ => config.toList ++ [condition, data]
  | .resolve _ config => config.toList
  | _ => []

end Command

/-- How a run with some arguments ends. -/
def runArguments (files : Files) (env : Environment) (arguments : List String) : Ending :=
  match Command.ofArguments? arguments with
  | none => { code := 2 }
  | some command =>
    match command.answer files env with
    | .ok line => { code := 0, output := line ++ "\n" }
    | .error message => { code := 1, error := some (errorLine message) }

end Conditions
