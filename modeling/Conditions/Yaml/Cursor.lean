import Conditions.Yaml.Token

/-!
# Places in a YAML stream

A cursor is the rest of a stream and the place where it begins. Lines end at the usual characters
and at the line and paragraph separators of Unicode; all but the separators are read as the same
line break.
-/

namespace Conditions.Yaml

/-- A character that a stream may hold. -/
def isAllowed (c : Char) : Bool :=
  let n := c.toNat
  n == 0x9 || n == 0xa || n == 0xd || (0x20 ≤ n && n ≤ 0x7e) || n == 0x85
    || (0xa0 ≤ n && n ≤ 0xd7ff) || (0xe000 ≤ n && n ≤ 0xfffd) || 0x10000 ≤ n

/-- A space or a tab. -/
def isSpace (c : Char) : Bool := c = ' ' || c = '\t'

/-- A character that ends a line. -/
def isBreak (c : Char) : Bool :=
  c = '\r' || c = '\n' || c = '\u0085' || c = '\u2028' || c = '\u2029'

/-- The end of a stream, or a character that ends a word. -/
def isWordEnd : Option Char → Bool
  | none => true
  | some c => isSpace c || isBreak c

/-- A letter of ASCII, a digit, a dash or a low line. -/
def isWordChar (c : Char) : Bool := c.isAlphanum || c = '-' || c = '_'

/-- The rest of a stream and its place. -/
structure Cursor where
  /-- The characters that are left. -/
  rest : List Char
  /-- The number of characters before. -/
  index : Nat := 0
  /-- The number of lines before. -/
  line : Nat := 0
  /-- The number of characters before in the line. -/
  column : Nat := 0

namespace Cursor

/-- The next character. -/
def head? (c : Cursor) : Option Char := c.rest.head?

/-- A character ahead. -/
def ahead? (c : Cursor) (n : Nat) : Option Char := c.rest[n]?

/-- Passes over characters of a line. -/
def skip (c : Cursor) (n : Nat) : Cursor :=
  { c with rest := c.rest.drop n, index := c.index + n, column := c.column + n }

/-- Passes over the end of a line, of which there may be two characters. -/
def skipBreak (c : Cursor) : Cursor :=
  let n := match c.rest with
    | '\r' :: '\n' :: _ => 2
    | _ => 1
  ⟨c.rest.drop n, c.index + n, c.line + 1, 0⟩

/-- Whether the end of a line is next. -/
def atBreak (c : Cursor) : Bool := c.head?.any isBreak

/-- What the end of a line is read as; nothing if it is not next. -/
def breakText (c : Cursor) : List Char :=
  match c.head? with
  | some '\u2028' => ['\u2028']
  | some '\u2029' => ['\u2029']
  | some b => if isBreak b then ['\n'] else []
  | none => []

/-- Passes over the end of a line if it is next. -/
def skipBreak? (c : Cursor) : Cursor := if c.atBreak then c.skipBreak else c

/-- The characters of a class that are next, in one line. -/
def takeWhile (c : Cursor) (p : Char → Bool) : List Char := c.rest.takeWhile p

/-- Passes over the characters of a class, in one line. -/
def skipWhile (c : Cursor) (p : Char → Bool) : Cursor := c.skip (c.takeWhile p).length

/-- Passes over the rest of a line. -/
def skipLine (c : Cursor) : Cursor := c.skipWhile (!isBreak ·)

/-- Passes over spaces, tabs and a comment; then the line has to end. -/
def endLine (c : Cursor) : Except Fault Cursor :=
  let c := c.skipWhile isSpace
  let c := if c.head? = some '#' then c.skipLine else c
  if c.head?.all isBreak then .ok c.skipBreak? else .error .token

/-- Whether three equal characters stand at the start of a line as a word. -/
def atMark (c : Cursor) (mark : Char) : Bool :=
  c.column == 0 && c.rest.take 3 == [mark, mark, mark] && isWordEnd (c.ahead? 3)

/-- Whether a mark between documents is next. -/
def atDocumentMark (c : Cursor) : Bool := c.atMark '-' || c.atMark '.'

end Cursor

end Conditions.Yaml
