import Conditions.Operator
import Conditions.Fields
import Conditions.Text.Blank
import Conditions.Text.Lowercase
import Conditions.Text.Quoted

/-!
# Resolving operator tokens

A resolver gives the operator that a token names, or the reason why there is none. The resolver in
use looks tokens up in a table of aliases: the built-in ones, with those of the settings written
over them. Blanks around a token and around an alias do not count. A table may be *folded*, so that
capitals do not count either; then two aliases that differ only in them have to name one operator.
-/

namespace Conditions

/-- Why a token has no operator. -/
inductive ResolveError where
  /-- The token is blank. -/
  | malformed (token : String)
  /-- The token names nothing. -/
  | unknown (token : String)
  deriving DecidableEq

/-- What is said of a token without operator. -/
def ResolveError.message : ResolveError → String
  | .malformed token => "Malformed operator token: " ++ quoted token
  | .unknown token => "Unknown operator: " ++ token

/-- A resolver of tokens. -/
abbrev Resolver := String → Except ResolveError OperatorKind

/-- How a resolver is to be built. -/
structure ResolverSettings where
  /-- Whether a token that names nothing is an error. -/
  strict : Bool := false
  /-- Whether capitals do not count. -/
  caseInsensitive : Bool := false
  /-- Aliases with the names of the operators that they stand for. -/
  aliases : List (String × String) := []
  deriving DecidableEq

/-- Why a resolver cannot be built. -/
inductive AliasError where
  /-- An alias stands for something that is no operator. -/
  | unknownTarget (token target : String)
  /-- An alias is blank. -/
  | blank
  /-- Aliases of two operators are one when capitals do not count. -/
  | collision (first second : OperatorKind) (token : String)

/-- What is said of a bad alias. Of a collision the two names are given in order. -/
def AliasError.message : AliasError → String
  | .unknownTarget token target => s!"alias '{token}' targets unknown operator '{target}'"
  | .blank => "empty operator alias"
  | .collision first second token =>
    let (low, high) := if second.name < first.name then (second, first) else (first, second)
    s!"aliases for '{low.name}' and '{high.name}' collide as '{token}'"

/-- The built-in aliases. -/
def builtinAliases : List (String × OperatorKind) :=
  [(["lessThan", "lt", "<"], OperatorKind.compare .lessThan),
    (["greaterThan", "gt", ">"], .compare .greaterThan),
    (["equals", "eq", "==", "==="], .compare .equals),
    (["notEquals", "ne", "neq", "!=", "!=="], .compare .notEquals),
    (["lessThanOrEqual", "lte", "le", "<="], .compare .lessThanOrEqual),
    (["greaterThanOrEqual", "gte", "ge", ">="], .compare .greaterThanOrEqual),
    (["and", "all", "&&"], .and), (["or", "any", "||"], .or), (["not", "!"], .not)].flatMap
    fun (tokens, kind) => tokens.map (·, kind)

/-- A table of aliases. -/
structure AliasTable where
  /-- The operators by token. -/
  entries : Fields OperatorKind
  /-- Whether tokens are put in small letters before they are looked up. -/
  folded : Bool
  /-- Whether a token that names nothing is an error. -/
  strict : Bool

namespace AliasTable

/-- The built-in aliases alone. -/
def builtin : AliasTable := ⟨Fields.ofWrites builtinAliases, false, false⟩

/-- Writes one alias of the settings over a table. -/
def addAlias (entries : Fields OperatorKind) (token target : String) :
    Except AliasError (Fields OperatorKind) :=
  match OperatorKind.ofName? target with
  | none => .error (.unknownTarget token target)
  | some kind => if trim token = "" then .error .blank else .ok (entries.put (trim token) kind)

/-- Writes an entry in small letters, if the token does not stand for another operator yet. -/
def foldEntry (entries : Fields OperatorKind) (token : String) (kind : OperatorKind) :
    Except AliasError (Fields OperatorKind) :=
  match entries.find? (lowercase token) with
  | some other =>
    if other = kind then .ok (entries.put (lowercase token) kind)
    else .error (.collision other kind (lowercase token))
  | none => .ok (entries.put (lowercase token) kind)

/-- The table for some settings. -/
def ofSettings (settings : ResolverSettings) : Except AliasError AliasTable := do
  let entries ← settings.aliases.foldlM (fun entries entry => addAlias entries entry.1 entry.2)
    builtin.entries
  let entries ←
    if settings.caseInsensitive then
      entries.foldlM (fun folded entry => foldEntry folded entry.1 entry.2) []
    else .ok entries
  .ok ⟨entries, settings.caseInsensitive, settings.strict⟩

/-- The number of tokens in a table. -/
def size (table : AliasTable) : Nat := table.entries.length

/-- Whether a table has no tokens. -/
def isEmpty (table : AliasTable) : Bool := table.entries.isEmpty

/-- The resolver that looks tokens up in a table. -/
def resolve (table : AliasTable) : Resolver := fun token =>
  if trim token = "" then .error (.malformed token)
  else
    match table.entries.find? (if table.folded then lowercase (trim token) else trim token) with
    | some kind => .ok kind
    | none =>
      if table.strict then .error (.unknown (trim token)) else .ok (.unrecognized (trim token))

end AliasTable

end Conditions
