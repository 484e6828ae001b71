import Conditions.Yaml.Properties

/-!
# From a YAML stream to tokens

The lexer keeps what the indicators leave open. Indentation is a stack of columns: a deeper column
opens a collection, a shallower one closes all that are deeper. A *possible key* is a token that
becomes a key if a colon follows it in the same line, within 1024 characters; the mark of a key is
then put before it, behind the lexer's place. Where a mapping is open at the column of a possible
key, the colon has to follow.

Inside brackets indentation does not count, and every open bracket has a possible key of its own.
-/

namespace Conditions.Yaml

/-- A token that a colon would make a key. -/
structure PossibleKey where
  /-- The number of tokens before it. -/
  position : Nat
  /-- Where it begins. -/
  start : Cursor
  /-- Whether it has to become a key. -/
  required : Bool

/-- The state of the lexer. -/
structure Lexer where
  /-- The place in the stream. -/
  cursor : Cursor
  /-- The column of the innermost indented collection, less than zero outside all. -/
  indent : Int := -1
  /-- The columns of the collections around it, innermost first. -/
  outer : List Int := []
  /-- The possible keys of the open brackets, innermost first. -/
  inner : List (Option PossibleKey) := []
  /-- The possible key outside all brackets. -/
  key : Option PossibleKey := none
  /-- Whether a possible key may begin here. -/
  keyAllowed : Bool := true
  /-- The tokens so far, the last first. -/
  tokens : List Token := []

namespace Lexer

/-- Whether a bracket is open. -/
def inFlow (l : Lexer) : Bool := !l.inner.isEmpty

/-- Adds a token. -/
def emit (l : Lexer) (token : Token) : Lexer := { l with tokens := token :: l.tokens }

/-- Puts a token before all but the first `position` ones. -/
def emitAt (l : Lexer) (position : Nat) (token : Token) : Lexer :=
  let later := l.tokens.length - position
  { l with tokens := l.tokens.take later ++ token :: l.tokens.drop later }

/-- Passes over characters and adds the token that they are. -/
def take (l : Lexer) (n : Nat) (token : Token) : Lexer :=
  { l.emit token with cursor := l.cursor.skip n }

/-! ### Possible keys -/

/-- The possible key at the innermost open bracket. -/
def currentKey (l : Lexer) : Option PossibleKey := l.inner.headD l.key

/-- Sets the possible key at the innermost open bracket. -/
def setKey (l : Lexer) (key : Option PossibleKey) : Lexer :=
  match l.inner with
  | [] => { l with key }
  | _ :: inner => { l with inner := key :: inner }

/-- Gives up the possible key. -/
def dropKey (l : Lexer) : Except Fault Lexer :=
  if l.currentKey.any (·.required) then .error .misplaced else .ok (l.setKey none)

/-- Makes the token that is to follow a possible key, where one may begin. -/
def saveKey (l : Lexer) : Except Fault Lexer :=
  if l.keyAllowed then do
    let required := !l.inFlow && decide (l.indent = l.cursor.column)
    .ok ((← l.dropKey).setKey (some ⟨l.tokens.length, l.cursor, required⟩))
  else .ok l

/-- Whether a colon here still makes a possible key a key. -/
def reaches (l : Lexer) (key : PossibleKey) : Bool :=
  key.start.line == l.cursor.line && decide (l.cursor.index ≤ key.start.index + 1024)

/-! ### Indentation -/

/-- Opens a collection at a column deeper than the innermost one; its mark is put at `position`. -/
def indentTo (l : Lexer) (column : Nat) (position : Nat) (token : Token) : Lexer :=
  if !l.inFlow && decide (l.indent < column) then
    { l.emitAt position token with indent := column, outer := l.indent :: l.outer }
  else l

/-- Closes the collections deeper than a column, of `columns` innermost first. -/
def unindentFrom (l : Lexer) (column : Int) : List Int → Lexer
  | [] => { l with outer := [] }
  | next :: outer =>
    if column < l.indent then
      unindentFrom { l.emit .blockEnd with indent := next } column outer
    else { l with outer := next :: outer }

/-- Closes the collections deeper than a column. -/
def unindentTo (l : Lexer) (column : Int) : Lexer :=
  if l.inFlow then l else l.unindentFrom column l.outer

/-! ### Tokens by their first character -/

/-- Passes over blanks, comments and line ends. A tab counts as a blank where no possible key may
begin, and inside brackets; outside them a possible key may begin in a new line. -/
def skipBlanks : Nat → Lexer → Lexer
  | 0, l => l
  | fuel + 1, l =>
    let c := l.cursor
    let c := if c.column = 0 ∧ c.head? = some '\ufeff' then c.skip 1 else c
    let c := c.skipWhile fun d => d = ' ' || ((l.inFlow || !l.keyAllowed) && d = '\t')
    let c := if c.head? = some '#' then c.skipLine else c
    if c.atBreak then
      skipBlanks fuel { l with cursor := c.skipBreak, keyAllowed := l.keyAllowed || !l.inFlow }
    else { l with cursor := c }

/-- A directive. -/
def directive (l : Lexer) : Except Fault Lexer := do
  let l ← (l.unindentTo (-1)).dropKey
  let (token, cursor) ← readDirective l.cursor
  .ok { l.emit token with cursor, keyAllowed := false }

/-- A mark between documents. -/
def documentMark (l : Lexer) (token : Token) : Except Fault Lexer := do
  let l ← (l.unindentTo (-1)).dropKey
  .ok { l.take 3 token with keyAllowed := false }

/-- An opening bracket or brace. -/
def openBracket (l : Lexer) (token : Token) : Except Fault Lexer := do
  let l ← l.saveKey
  .ok { l.take 1 token with inner := none :: l.inner, keyAllowed := true }

/-- A closing bracket or brace. -/
def closeBracket (l : Lexer) (token : Token) : Except Fault Lexer := do
  let l ← l.dropKey
  .ok { l.take 1 token with inner := l.inner.tail, keyAllowed := false }

/-- A comma. -/
def comma (l : Lexer) : Except Fault Lexer := do
  let l ← l.dropKey
  .ok { l.take 1 .flowEntry with keyAllowed := true }

/-- A dash or question mark, which outside brackets opens a collection where a key may begin. -/
def opener (l : Lexer) (start token : Token) (keyAllowed : Bool) : Except Fault Lexer := do
  if !l.inFlow && !l.keyAllowed then .error .misplaced
  let l ← (l.indentTo l.cursor.column l.tokens.length start).dropKey
  .ok { l.take 1 token with keyAllowed }

/-- A colon. After a possible key it makes that key a key; otherwise it follows a question mark or
an empty key. -/
def colon (l : Lexer) : Except Fault Lexer :=
  match l.currentKey.filter l.reaches with
  | some key =>
    let l := (l.emitAt key.position .key).indentTo key.start.column key.position .blockMappingStart
    .ok { (l.setKey none).take 1 .value with keyAllowed := false }
  | none => do
    if l.currentKey.any (·.required) then .error .misplaced
    if !l.inFlow && !l.keyAllowed then .error .misplaced
    let l := (l.setKey none).indentTo l.cursor.column l.tokens.length .blockMappingStart
    .ok { l.take 1 .value with keyAllowed := !l.inFlow }

/-- An anchor or alias. -/
def name (l : Lexer) (token : String → Token) : Except Fault Lexer := do
  let l ← l.saveKey
  let (name, cursor) ← readAnchorName l.cursor
  .ok { l.emit (token name) with cursor, keyAllowed := false }

/-- A tag. -/
def tag (l : Lexer) : Except Fault Lexer := do
  let l ← l.saveKey
  let (token, cursor) ← readTag l.inFlow l.cursor
  .ok { l.emit token with cursor, keyAllowed := false }

/-- A block of lines. -/
def block (l : Lexer) (folded : Bool) : Except Fault Lexer := do
  let l ← l.dropKey
  let (text, cursor) ← blockScalar folded l.indent l.cursor
  let style := if folded then Style.other else .literal
  .ok { l.emit (.scalar (String.ofList text) style) with cursor, keyAllowed := true }

/-- A text between quotes. -/
def quoted (l : Lexer) (single : Bool) : Except Fault Lexer := do
  let l ← l.saveKey
  let (text, cursor) ← quotedScalar single l.cursor
  .ok { l.emit (.scalar (String.ofList text) .other) with cursor, keyAllowed := false }

/-- Plain words. A possible key may begin after them if a line has ended. -/
def plain (l : Lexer) : Except Fault Lexer := do
  let l ← l.saveKey
  let (text, broken, cursor) ← plainScalar l.inFlow (l.indent + 1).toNat l.cursor
  .ok { l.emit (.scalar (String.ofList text) .plain) with cursor, keyAllowed := broken }

/-- Whether a plain scalar may begin with a character before another. -/
def beginsPlain (l : Lexer) (c : Char) (next : Option Char) : Bool :=
  c ∉ ['-', '?', ':', ',', '[', ']', '\x7b', '\x7d', '#', '&', '*', '!', '|', '>', '\'', '"', '%',
      '@', '\x60', '\t']
    || (c = '-' && !next.any isSpace)
    || (!l.inFlow && (c = '?' || c = ':') && !isWordEnd next)

/-- Reads the token that begins with a character. -/
def token (l : Lexer) (c : Char) : Except Fault Lexer :=
  let next := l.cursor.ahead? 1
  let alone := isWordEnd next
  if c = '%' && l.cursor.column == 0 then l.directive
  else if l.cursor.atMark '-' then l.documentMark .documentStart
  else if l.cursor.atMark '.' then l.documentMark .documentEnd
  else if c = '[' then l.openBracket .flowSequenceStart
  else if c = '\x7b' then l.openBracket .flowMappingStart
  else if c = ']' then l.closeBracket .flowSequenceEnd
  else if c = '\x7d' then l.closeBracket .flowMappingEnd
  else if c = ',' then l.comma
  else if c = '-' && alone then l.opener .blockSequenceStart .blockEntry true
  else if c = '?' && (l.inFlow || alone) then l.opener .blockMappingStart .key (!l.inFlow)
  else if c = ':' && (l.inFlow || alone) then l.colon
  else if c = '*' then l.name .reference
  else if c = '&' then l.name .anchor
  else if c = '!' then l.tag
  else if c = '|' && !l.inFlow then l.block false
  else if c = '>' && !l.inFlow then l.block true
  else if c = '\'' then l.quoted true
  else if c = '"' then l.quoted false
  else if l.beginsPlain c next then l.plain
  else .error .token

/-- Reads tokens up to the end of the stream. -/
def run : Nat → Lexer → Except Fault Lexer
  | 0, _ => .error .token
  | fuel + 1, l =>
    let l := skipBlanks (l.cursor.rest.length + 1) l
    match l.currentKey.filter fun key => !l.reaches key && key.required with
    | some _ => .error .misplaced
    | none =>
      let l := l.unindentTo l.cursor.column
      match l.cursor.head? with
      | none => (l.unindentTo (-1)).dropKey
      | some c => do run fuel (← l.token c)

end Lexer

/-- The tokens of a text. -/
def tokens (text : List Char) : Except Fault (List Token) :=
  if text.all isAllowed then
    (Lexer.run (text.length + 1) { cursor := ⟨text, 0, 0, 0⟩ }).map (·.tokens.reverse)
  else .error .character

end Conditions.Yaml
