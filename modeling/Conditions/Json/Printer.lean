import Conditions.Json.Value

/-!
# Written JSON

The text of a value in two forms: `compact`, without blanks, and `pretty`, one item a line with two
blanks of indentation a level. In a text, quotes, backslashes and control characters are escaped.
-/

namespace Conditions.Json

/-- A hexadecimal digit. -/
def hexDigit (n : Nat) : Char := (Nat.toDigits 16 n).headD '0'

/-- A character inside quotes. -/
def escapeChar (c : Char) : List Char :=
  match c with
  | '"' => ['\\', '"']
  | '\\' => ['\\', '\\']
  | '\x08' => ['\\', 'b']
  | '\t' => ['\\', 't']
  | '\n' => ['\\', 'n']
  | '\x0c' => ['\\', 'f']
  | '\r' => ['\\', 'r']
  | c =>
    if c.toNat < 0x20 then
      ['\\', 'u', '0', '0', hexDigit (c.toNat / 16), hexDigit (c.toNat % 16)]
    else [c]

/-- A text between quotes. -/
def writeText (s : String) : List Char := '"' :: s.toList.flatMap escapeChar ++ ['"']

/-- A number. -/
def writeNumber : JsonNumber → List Char
  | .whole i => (toString i).toList
  | .real x => Layout.document.writeFinite x

/-- A value that holds no others; the brackets of an empty list or object otherwise. -/
def writeScalar : Json → List Char
  | .null => ['n', 'u', 'l', 'l']
  | .bool b => if b then ['t', 'r', 'u', 'e'] else ['f', 'a', 'l', 's', 'e']
  | .number n => writeNumber n
  | .text s => writeText s
  | .array _ => ['[', ']']
  | .object _ => ['\x7b', '\x7d']

/-! ### Without blanks -/

mutual

/-- The text of a value without blanks. -/
def write : Json → List Char
  | .array items => '[' :: writeItems items ++ [']']
  | .object members => '\x7b' :: writeMembers members ++ ['\x7d']
  | .null => writeScalar .null
  | .bool b => writeScalar (.bool b)
  | .number n => writeScalar (.number n)
  | .text s => writeScalar (.text s)

/-- Items with commas between them. -/
def writeItems : List Json → List Char
  | [] => []
  | item :: items => write item ++ writeMoreItems items

/-- Items with a comma before each. -/
def writeMoreItems : List Json → List Char
  | [] => []
  | item :: items => ',' :: write item ++ writeMoreItems items

/-- Members with commas between them. -/
def writeMembers : List (String × Json) → List Char
  | [] => []
  | (name, value) :: members => writeText name ++ ':' :: write value ++ writeMoreMembers members

/-- Members with a comma before each. -/
def writeMoreMembers : List (String × Json) → List Char
  | [] => []
  | (name, value) :: members =>
    ',' :: writeText name ++ ':' :: write value ++ writeMoreMembers members

end

/-- The text of a value without blanks. -/
def compact (v : Json) : String := String.ofList (write v)

/-! ### One item a line -/

/-- A new line indented to a level. -/
def newLine (level : Nat) : List Char := '\n' :: List.replicate (2 * level) ' '

mutual

/-- The lines of a value that begins at a level. -/
def writeLines (level : Nat) : Json → List Char
  | .array [] => writeScalar (.array [])
  | .array (item :: items) =>
    '[' :: newLine (level + 1) ++ writeLines (level + 1) item
      ++ writeItemLines (level + 1) items ++ newLine level ++ [']']
  | .object [] => writeScalar (.object [])
  | .object ((name, value) :: members) =>
    '\x7b' :: newLine (level + 1) ++ writeText name ++ ':' :: ' ' :: writeLines (level + 1) value
      ++ writeMemberLines (level + 1) members ++ newLine level ++ ['\x7d']
  | .null => writeScalar .null
  | .bool b => writeScalar (.bool b)
  | .number n => writeScalar (.number n)
  | .text s => writeScalar (.text s)

/-- Items with a comma and a new line before each. -/
def writeItemLines (level : Nat) : List Json → List Char
  | [] => []
  | item :: items =>
    ',' :: newLine level ++ writeLines level item ++ writeItemLines level items

/-- Members with a comma and a new line before each. -/
def writeMemberLines (level : Nat) : List (String × Json) → List Char
  | [] => []
  | (name, value) :: members =>
    ',' :: newLine level ++ writeText name ++ ':' :: ' ' :: writeLines level value
      ++ writeMemberLines level members

end

/-- The text of a value with one item a line. -/
def pretty (v : Json) : String := String.ofList (writeLines 0 v)

end Conditions.Json
