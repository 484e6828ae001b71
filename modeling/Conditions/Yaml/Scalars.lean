import Conditions.Yaml.Folding
import Conditions.Number.Decimal

/-!
# Scalars of a YAML stream

The three ways to write a scalar: plain words, a text between quotes, and a block of lines under a
header. Each function starts at the scalar and gives its text and the place after it.
-/

namespace Conditions.Yaml

/-! ### Plain words -/

/-- A bracket, a brace or a comma, which end a plain word inside brackets. -/
def isFlowIndicator (c : Char) : Bool :=
  c = ',' || c = '[' || c = ']' || c = '\x7b' || c = '\x7d'

/-- The characters of a plain word up to what ends it. Inside brackets a colon may not come before
a bracket, a comma or a question mark. -/
def plainWord (inFlow : Bool) : List Char → Except Fault (List Char)
  | [] => .ok []
  | c :: rest =>
    if isWordEnd (some c) then .ok []
    else if inFlow && c = ':' && rest.head?.any (fun d => isFlowIndicator d || d = '?') then
      .error .token
    else if (c = ':' && isWordEnd rest.head?) || (inFlow && isFlowIndicator c) then .ok []
    else (plainWord inFlow rest).map (c :: ·)

/-- Reads on in a plain scalar after a gap: its text, whether a line has ended behind it, and the
place after it. Outside brackets every line after the first has to reach the column `indent`. -/
def plainFrom (inFlow : Bool) (indent : Nat) :
    Nat → List Char → Gap → Cursor → Except Fault (List Char × Bool × Cursor)
  | 0, text, gap, c => .ok (text, gap.broken, c)
  | fuel + 1, text, gap, c =>
    if c.atDocumentMark || c.head? = some '#' then .ok (text, gap.broken, c)
    else do
      let word ← plainWord inFlow c.rest
      if word = [] then .ok (text, gap.broken, c)
      else
        let text := text ++ gap.text ++ word
        let (gap, c) ← Gap.read indent {} (c.skip word.length)
        if gap.isNothing || (!inFlow && decide (c.column < indent)) then
          .ok (text, gap.broken, c)
        else plainFrom inFlow indent fuel text gap c

/-- A plain scalar. -/
def plainScalar (inFlow : Bool) (indent : Nat) (c : Cursor) :
    Except Fault (List Char × Bool × Cursor) :=
  plainFrom inFlow indent (c.rest.length + 1) [] {} c

/-! ### Text between quotes -/

/-- The character that a letter after a backslash stands for. -/
def quotedEscape? : Char → Option Char
  | '0' => some '\x00'
  | 'a' => some '\x07'
  | 'b' => some '\x08'
  | 't' => some '\t'
  | '\t' => some '\t'
  | 'n' => some '\n'
  | 'v' => some '\x0b'
  | 'f' => some '\x0c'
  | 'r' => some '\r'
  | 'e' => some '\x1b'
  | ' ' => some ' '
  | '"' => some '"'
  | '/' => some '/'
  | '\\' => some '\\'
  | 'N' => some '\u0085'
  | '_' => some '\u00a0'
  | 'L' => some '\u2028'
  | 'P' => some '\u2029'
  | _ => none

/-- The number of hexadecimal digits that a letter after a backslash asks for. -/
def quotedDigits? : Char → Option Nat
  | 'x' => some 2
  | 'u' => some 4
  | 'U' => some 8
  | _ => none

/-- The value of a hexadecimal digit. -/
def hexDigit? (c : Char) : Option Nat := (digitValue? c).filter (· < 16)

/-- The character of a code point in hexadecimal digits. -/
def codePoint? (digits : List Char) : Option Char := do
  let values ← digits.mapM hexDigit?
  let n := values.foldl (fun n d => 16 * n + d) 0
  if h : n.isValidChar then some (Char.ofNatAux n h) else none

/-- The character of an escape and the number of characters that it takes, backslash included. -/
def readEscape (c : Cursor) : Except Fault (Char × Nat) :=
  match c.ahead? 1 with
  | none => .error .token
  | some letter =>
    match quotedEscape? letter, quotedDigits? letter with
    | some d, _ => .ok (d, 2)
    | none, some n =>
      let digits := (c.rest.drop 2).take n
      match codePoint? digits with
      | some d => if digits.length = n then .ok (d, n + 2) else .error .token
      | none => .error .token
    | none, none => .error .token

/-- Reads on in a text between quotes, single or double ones: its text, and the place after the
closing quote. -/
def quotedFrom (single : Bool) : Nat → List Char → Cursor → Except Fault (List Char × Cursor)
  | 0, _, _ => .error .token
  | fuel + 1, text, c =>
    if c.atDocumentMark then .error .token
    else
      match c.head? with
      | none => .error .token
      | some d =>
        if isWordEnd (some d) then do
          let (gap, c) ← Gap.read 0 {} c
          quotedFrom single fuel (text ++ gap.text) c
        else if single && d = '\'' && c.ahead? 1 = some '\'' then
          quotedFrom single fuel (text ++ ['\'']) (c.skip 2)
        else if d = (if single then '\'' else '"') then .ok (text, c.skip 1)
        else if !single && d = '\\' then
          if (c.ahead? 1).any isBreak then do
            let (gap, c) ← Gap.read 0 { broken := true } (c.skip 1).skipBreak
            quotedFrom single fuel (text ++ gap.text) c
          else do
            let (e, n) ← readEscape c
            quotedFrom single fuel (text ++ [e]) (c.skip n)
        else quotedFrom single fuel (text ++ [d]) (c.skip 1)

/-- A text between quotes, from its opening quote. -/
def quotedScalar (single : Bool) (c : Cursor) : Except Fault (List Char × Cursor) :=
  quotedFrom single (c.rest.length + 1) [] (c.skip 1)

/-! ### Blocks of lines -/

/-- What becomes of the line breaks at the end of a block. -/
inductive Chomping where
  /-- All are dropped. -/
  | strip
  /-- The first is kept. -/
  | clip
  /-- All are kept. -/
  | keep
  deriving DecidableEq

/-- The header of a block. -/
structure BlockHeader where
  /-- What becomes of the line breaks at the end. -/
  chomping : Chomping := .clip
  /-- How far the lines are indented, if that is said. -/
  increment : Option Nat := none

/-- Reads a header of up to two signs, in either order, from after the indicator. -/
def blockHeader (c : Cursor) : Except Fault (BlockHeader × Cursor) :=
  let chomping (d : Char) : Option Chomping :=
    if d = '+' then some .keep else if d = '-' then some .strip else none
  let increment (d : Char) : Option Nat :=
    if d.isDigit then some (d.toNat - '0'.toNat) else none
  let zero (d : Option Char) : Bool := d = some '0'
  match c.head?.bind chomping, c.head?.bind increment with
  | some k, _ =>
    if zero (c.ahead? 1) then .error .token
    else
      match (c.ahead? 1).bind increment with
      | some n => .ok (⟨k, some n⟩, c.skip 2)
      | none => .ok (⟨k, none⟩, c.skip 1)
  | none, some n =>
    if zero c.head? then .error .token
    else
      match (c.ahead? 1).bind chomping with
      | some k => .ok (⟨k, some n⟩, c.skip 2)
      | none => .ok (⟨.clip, some n⟩, c.skip 1)
  | none, none => .ok ({}, c)

/-- Reads empty lines, each indented to `indent` at most: the line breaks, the greatest indentation
met, and the place after them. Without a known indentation spaces are passed over as they come. -/
def emptyLines (indent : Option Nat) :
    Nat → Nat → List Char → Cursor → Except Fault (List Char × Nat × Cursor)
  | 0, deepest, breaks, c => .ok (breaks, deepest, c)
  | fuel + 1, deepest, breaks, c =>
    let spaces := (c.takeWhile (· = ' ')).length
    let c := c.skip (indent.elim spaces fun n => min spaces (n - c.column))
    if indent.all (fun n => decide (c.column < n)) && c.head? = some '\t' then .error .token
    else if c.atBreak then
      emptyLines indent fuel (max deepest c.column) (breaks ++ c.breakText) c.skipBreak
    else .ok (breaks, max deepest c.column, c)

/-- The state of reading a block. -/
structure BlockText where
  /-- The text so far. -/
  text : List Char := []
  /-- The line break of the last line. -/
  last : List Char := []
  /-- The line breaks of the empty lines after it. -/
  empty : List Char
  /-- Whether the last line began with a blank. -/
  blank : Bool := false

/-- The text of a block before its next line. A folded block joins two lines that begin with no
blank. -/
def BlockText.joined (folded : Bool) (b : BlockText) (blank : Bool) : List Char :=
  if folded && b.last.head? = some '\n' && !b.blank && !blank then
    b.text ++ (if b.empty = [] then [' '] else b.empty)
  else b.text ++ b.last ++ b.empty

/-- Reads the lines of a block that are indented to `indent`. -/
def blockLines (folded : Bool) (indent : Nat) :
    Nat → BlockText → Cursor → Except Fault (BlockText × Cursor)
  | 0, b, c => .ok (b, c)
  | fuel + 1, b, c =>
    if c.column = indent && c.head?.isSome then do
      let blank := c.head?.any isSpace
      let line := c.takeWhile (!isBreak ·)
      let c := c.skip line.length
      let last := c.breakText
      let (empty, _, d) ← emptyLines (some indent) (c.rest.length + 1) 0 [] c.skipBreak?
      blockLines folded indent fuel ⟨b.joined folded blank ++ line, last, empty, blank⟩ d
    else .ok (b, c)

/-- A block of lines, from its indicator, inside a collection indented to `parent` (less than zero
outside all). -/
def blockScalar (folded : Bool) (parent : Int) (c : Cursor) :
    Except Fault (List Char × Cursor) := do
  let (header, c) ← blockHeader (c.skip 1)
  let c ← c.endLine
  let known := header.increment.map fun n => (max parent 0).toNat + n
  let (empty, deepest, c) ← emptyLines known (c.rest.length + 1) 0 [] c
  let indent := known.getD (max (max deepest (parent + 1).toNat) 1)
  let (b, c) ← blockLines folded indent (c.rest.length + 1) { empty } c
  let tail := match header.chomping with
    | .strip => []
    | .clip => b.last
    | .keep => b.last ++ b.empty
  .ok (b.text ++ tail, c)

end Conditions.Yaml
