import Conditions.Text.Alphanumeric
import Conditions.Text.Blank

/-!
# Variables from a file

Variables are set by the environment and by the lines of a file; the environment wins, and so does
the earlier of two lines. A line is a name, an equals sign and a value, after the word export or
without it. A value may be put between quotes of either kind, in parts; outside single quotes a
backslash keeps the next character from its meaning, and a dollar sign puts in the value of a
variable, whose name is what follows of letters and digits or stands between braces. After a value
outside quotes only a comment may come. The first line that is none of this ends the file.
-/

namespace Conditions

/-- The values of variables, of two under a name the first standing. -/
abbrev Environment := List (String × String)

/-- How a dollar sign is being read. -/
inductive Substitution where
  /-- There is none. -/
  | none
  /-- Up to the first character that is no letter or digit. -/
  | bare
  /-- Up to the closing brace. -/
  | braced
  deriving DecidableEq

/-- The state of reading a value. -/
structure ValueReader where
  /-- The value so far. -/
  value : List Char := []
  /-- Whether a single quote is open. -/
  single : Bool := false
  /-- Whether a double quote is open. -/
  double : Bool := false
  /-- Whether the last character was a backslash. -/
  escaped : Bool := false
  /-- Whether the value has ended. -/
  ended : Bool := false
  /-- Whether a dollar sign is being read. -/
  substitution : Substitution := .none
  /-- The name after the dollar sign so far. -/
  name : List Char := []

namespace ValueReader

/-- Adds a character to the value. -/
def push (r : ValueReader) (c : Char) : ValueReader := { r with value := r.value ++ [c] }

/-- Puts in the value of the variable named after the dollar sign; one that is not set is empty. -/
def substitute (r : ValueReader) (env : Environment) : ValueReader :=
  { r with
    value := r.value ++ ((env.lookup (String.ofList r.name)).getD "").toList, name := [] }

/-- Reads a character after a backslash. -/
def readEscaped? (r : ValueReader) (c : Char) : Option ValueReader :=
  let r := { r with escaped := false }
  if c ∈ ['\\', '\'', '"', '$', ' '] then some (r.push c)
  else if c = 'n' then some (r.push '\n')
  else none

/-- Reads a character after a dollar sign. -/
def readName (r : ValueReader) (env : Environment) (c : Char) : ValueReader :=
  if isAlphanumeric c then { r with name := r.name ++ [c] }
  else if r.substitution = .braced then
    if c = '\x7d' then { r.substitute env with substitution := .none }
    else { r with name := r.name ++ [c] }
  else if c = '\x7b' ∧ r.name = [] then { r with substitution := .braced }
  else if c = '$' then { r.substitute env with substitution := .bare }
  else { (r.substitute env).push c with substitution := .none }

/-- Reads a character that is neither escaped nor part of a name. -/
def readPlain (r : ValueReader) (c : Char) : ValueReader :=
  if r.single then if c = '\'' then { r with single := false } else r.push c
  else if c = '$' then { r with substitution := .bare }
  else if c = '\\' then { r with escaped := true }
  else if r.double then if c = '"' then { r with double := false } else r.push c
  else if c = '\'' then { r with single := true }
  else if c = '"' then { r with double := true }
  else if c = ' ' ∨ c = '\t' then { r with ended := true }
  else r.push c

/-- Reads the characters of a value. -/
def read? (env : Environment) : ValueReader → List Char → Option ValueReader
  | r, [] => some r
  | r, c :: rest =>
    if r.ended then
      if c = ' ' ∨ c = '\t' then read? env r rest else if c = '#' then some r else none
    else if r.escaped then (r.readEscaped? c).bind (read? env · rest)
    else if r.substitution ≠ .none then read? env (r.readName env c) rest
    else read? env (r.readPlain c) rest

/-- The value, if no quote or brace is left open. -/
def finish? (r : ValueReader) (env : Environment) : Option String :=
  if r.single ∨ r.double ∨ r.substitution = .braced then none
  else some (String.ofList (r.substitute env).value)

end ValueReader

namespace Environment

/-- The value that a text gives. -/
def value? (env : Environment) (text : List Char) : Option String :=
  if text.head? = none ∨ text.head? = some '#' then some ""
  else (ValueReader.read? env {} text).bind (·.finish? env)

/-- Whether a character may stand in the name of a variable. -/
def isNameChar (c : Char) : Bool := c.isAlphanum || c = '_' || c = '.'

/-- The name of a variable at the head of a text, and what follows it and blanks. -/
def splitName? (text : List Char) : Option (List Char × List Char) :=
  if text.head?.any fun c => c.isAlpha || c = '_' then
    some (text.takeWhile isNameChar, (text.dropWhile isNameChar).dropWhile isBlank)
  else none

/-- A name and the text of its value, from around an equals sign. -/
def splitBinding? (text : List Char) : Option (String × List Char) := do
  match ← splitName? text with
  | (name, '=' :: rest) => some (String.ofList name, rest.dropWhile isBlank)
  | (['e', 'x', 'p', 'o', 'r', 't'], rest) =>
    match ← splitName? rest with
    | (name, '=' :: rest) => some (String.ofList name, rest.dropWhile isBlank)
    | _ => none
  | _ => none

/-- Sets a variable, unless it is set. -/
def setDefault (env : Environment) (name value : String) : Environment :=
  if (env.lookup name).isSome then env else env ++ [(name, value)]

/-- The lines of a text, each ending at a line feed with or without a carriage return before it. -/
def lines (text : List Char) : List (List Char) :=
  let strip (line : List Char) := if line.getLast? = some '\r' then line.dropLast else line
  (text.splitOn '\n').map strip

/-- The variables after the lines of a file. -/
def addLines : Environment → List (List Char) → Environment
  | env, [] => env
  | env, line :: rest =>
    let text := (trimEndOf isBlank line).dropWhile isBlank
    if text.head? = none ∨ text.head? = some '#' then addLines env rest
    else
      match splitBinding? text with
      | none => env
      | some (name, value) =>
        match env.value? value with
        | none => env
        | some value => addLines (env.setDefault name value) rest

/-- Every word of a text that may be the name of a variable. -/
def words (text : String) : List String :=
  ((text.toList.map fun c => if isNameChar c then c else ' ').splitOn ' ').map String.ofList

/-- The variables after a file. -/
def addFile (env : Environment) (text : String) : Environment := env.addLines (lines text.toList)

/-- The variables after a file, if there is one. -/
def withFile (env : Environment) (file : Option String) : Environment :=
  (file.map env.addFile).getD env

end Environment

end Conditions
