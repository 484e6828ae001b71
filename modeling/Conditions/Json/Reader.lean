import Conditions.Json.Leaf

/-!
# From text to tree

`Document.read` turns any text into a tree. It never fails: what cannot be read is kept in the tree
as the fault that a reader meets there. A name that is no text, and anything but a colon after a
name, ends its object.
-/

namespace Conditions.Json

/-- Whether a character may stand between the parts of a document. -/
def isSpace (c : Char) : Bool := c = ' ' || c = '\n' || c = '\t' || c = '\r'

/-- A text without the blanks before it. -/
def skipSpace (s : List Char) : List Char := s.dropWhile isSpace

/-- The tree for a word of which the first letter is read, and what follows it. -/
def readWord (letters : List Char) (tree : Tree) (s : List Char) : Tree × List Char :=
  if letters.isPrefixOf s then (tree, s.drop letters.length)
  else if s.isPrefixOf letters then (.word .truncated, [])
  else (.word .malformed, [])

/-- What stands between a name and its value: only a colon lets the value follow. -/
def readColon (s : List Char) : Except Fault (List Char) :=
  match skipSpace s with
  | [] => .error .truncated
  | ':' :: rest => .ok rest
  | _ => .error .malformed

/-- Whether a tree is a text that can be passed over. -/
def Tree.isName : Tree → Bool
  | .text leaf => leaf.passed.isOk
  | _ => false

mutual

/-- The tree at the head of a text, and what follows it. -/
def readTree : Nat → List Char → Tree × List Char
  | 0, _ => (.missing .truncated, [])
  | fuel + 1, s =>
    match skipSpace s with
    | [] => (.missing .truncated, [])
    | 'n' :: rest => readWord ['u', 'l', 'l'] .null rest
    | 't' :: rest => readWord ['r', 'u', 'e'] (.bool true) rest
    | 'f' :: rest => readWord ['a', 'l', 's', 'e'] (.bool false) rest
    | '"' :: rest => let (leaf, rest) := readText rest; (.text leaf, rest)
    | '[' :: rest =>
      let (items, close, rest) := readItems fuel rest
      (.array items close, rest)
    | '\x7b' :: rest =>
      let (members, close, rest) := readMembers fuel rest
      (.object members close, rest)
    | c :: rest =>
      if c = '-' || c.isDigit then
        let (leaf, rest) := readNumber (c :: rest)
        (.number leaf, rest)
      else (.missing .malformed, c :: rest)

/-- The items of a list from after its opening bracket, its closing bracket, and what follows. -/
def readItems : Nat → List Char → List Tree × Except Fault Unit × List Char
  | 0, _ => ([], .error .truncated, [])
  | fuel + 1, s =>
    match skipSpace s with
    | [] => ([], .error .truncated, [])
    | ']' :: rest => ([], .ok (), rest)
    | s =>
      let (item, rest) := readTree fuel s
      let (items, close, rest) := readMoreItems fuel rest
      (item :: items, close, rest)

/-- The items of a list from after one of them. -/
def readMoreItems : Nat → List Char → List Tree × Except Fault Unit × List Char
  | 0, _ => ([], .error .truncated, [])
  | fuel + 1, s =>
    match skipSpace s with
    | [] => ([], .error .truncated, [])
    | ']' :: rest => ([], .ok (), rest)
    | ',' :: rest =>
      let (item, rest) := readTree fuel rest
      let (items, close, rest) := readMoreItems fuel rest
      (item :: items, close, rest)
    | rest => ([], .error .malformed, rest)

/-- The members of an object from after its opening bracket, its closing bracket, and what
follows. -/
def readMembers : Nat → List Char → List (Tree × Tree) × Except Fault Unit × List Char
  | 0, _ => ([], .error .truncated, [])
  | fuel + 1, s =>
    match skipSpace s with
    | [] => ([], .error .truncated, [])
    | '\x7d' :: rest => ([], .ok (), rest)
    | s => readMember fuel s

/-- The members of an object from after one of them. -/
def readMoreMembers : Nat → List Char → List (Tree × Tree) × Except Fault Unit × List Char
  | 0, _ => ([], .error .truncated, [])
  | fuel + 1, s =>
    match skipSpace s with
    | [] => ([], .error .truncated, [])
    | '\x7d' :: rest => ([], .ok (), rest)
    | ',' :: rest => readMember fuel rest
    | rest => ([], .error .malformed, rest)

/-- The members of an object from where the name of one should stand. -/
def readMember : Nat → List Char → List (Tree × Tree) × Except Fault Unit × List Char
  | 0, _ => ([], .error .truncated, [])
  | fuel + 1, s =>
    let (name, rest) := readTree fuel s
    if name.isName then
      match readColon rest with
      | .ok rest =>
        let (value, rest) := readTree fuel rest
        let (members, close, rest) := readMoreMembers fuel rest
        ((name, value) :: members, close, rest)
      | .error fault => ([(name, .missing fault)], .error fault, [])
    else ([(name, .missing .malformed)], .error .malformed, [])

end

/-- What a reader meets that looks for the end of the text. -/
def readEnd (s : List Char) : Except Fault Unit :=
  if skipSpace s = [] then .ok () else .error .malformed

/-- A whole text as a document. -/
def Document.read (s : String) : Document :=
  let (tree, rest) := readTree (3 * s.toList.length + 3) s.toList
  ⟨tree, readEnd rest⟩

end Conditions.Json
