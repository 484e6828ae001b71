import Conditions.Yaml.Scalars

/-!
# Properties of nodes, and directives

Anchors, aliases and tags, which stand before a node, and directives, which stand before a document.
-/

namespace Conditions.Yaml

/-! ### Anchors and aliases -/

/-- The name of an anchor or alias, from its indicator. It ends at a blank or at certain
indicators. -/
def readAnchorName (c : Cursor) : Except Fault (String × Cursor) :=
  let name := (c.skip 1).takeWhile isWordChar
  let c := c.skip (name.length + 1)
  let ends := isWordEnd c.head? ||
    c.head?.any fun d => d ∈ ['?', ':', ',', ']', '\x7d', '%', '@', '\x60']
  if name ≠ [] ∧ ends then .ok (String.ofList name, c) else .error .token

/-! ### Tags -/

/-- A character that may stand in a tag as it is. Brackets and commas may do so only where nothing
else can be meant. -/
def isTagChar (verbatim : Bool) (c : Char) : Bool :=
  isWordChar c || c ∈ [';', '/', '?', ':', '@', '&', '=', '+', '$', '.', '!', '~', '*', '\'', '(', ')']
    || (verbatim && c ∈ [',', '[', ']'])

/-- The byte of a percent sign and two hexadecimal digits. -/
def percentByte? : List Char → Option Nat
  | '%' :: a :: b :: _ => do return 16 * (← hexDigit? a) + (← hexDigit? b)
  | _ => none

/-- The number of bytes of an encoded character and the bits that its first byte gives. -/
def leadingByte? (byte : Nat) : Option (Nat × Nat) :=
  if byte < 0x80 then some (1, byte)
  else if 0xc0 ≤ byte ∧ byte < 0xe0 then some (2, byte - 0xc0)
  else if 0xe0 ≤ byte ∧ byte < 0xf0 then some (3, byte - 0xe0)
  else if 0xf0 ≤ byte ∧ byte < 0xf8 then some (4, byte - 0xf0)
  else none

/-- The code point whose bytes after the first are the next `count` percent signs. -/
def continuedPoint? : Nat → Nat → List Char → Option Nat
  | 0, n, _ => some n
  | count + 1, n, s => do
    let byte ← percentByte? s
    if 0x80 ≤ byte ∧ byte < 0xc0 then continuedPoint? count (64 * n + (byte - 0x80)) (s.drop 3)
    else none

/-- The character given by percent signs, and how many of them it takes. -/
def percentChar? (s : List Char) : Option (Char × Nat) := do
  let (count, bits) ← leadingByte? (← percentByte? s)
  let n ← continuedPoint? (count - 1) bits (s.drop 3)
  return (Char.ofNat n, count)

/-- The characters of a tag, and the place after them. -/
def readTagChars (verbatim : Bool) : Nat → Cursor → Except Fault (List Char × Cursor)
  | 0, c => .ok ([], c)
  | fuel + 1, c =>
    match c.head? with
    | none => .ok ([], c)
    | some d =>
      if d = '%' then
        match percentChar? c.rest with
        | some (e, count) => do
          let (s, c) ← readTagChars verbatim fuel (c.skip (3 * count))
          .ok (e :: s, c)
        | none => .error .token
      else if isTagChar verbatim d then do
        let (s, c) ← readTagChars verbatim fuel (c.skip 1)
        .ok (d :: s, c)
      else .ok ([], c)

/-- The characters of a tag, at least one. -/
def readTagText (verbatim : Bool) (c : Cursor) : Except Fault (List Char × Cursor) := do
  let (s, c) ← readTagChars verbatim (c.rest.length + 1) c
  if s = [] then .error .token else .ok (s, c)

/-- A handle with an exclamation mark at either end, if one is next. -/
def handle? (c : Cursor) : Option (List Char) :=
  let word := (c.skip 1).takeWhile isWordChar
  if c.head? = some '!' ∧ c.ahead? (word.length + 1) = some '!' then some ('!' :: word ++ ['!'])
  else none

/-- The handle and suffix of a tag, from its indicator. A tag in angle brackets has an empty handle,
and so has the tag that is the indicator alone. -/
def readTagParts (c : Cursor) : Except Fault (List Char × List Char × Cursor) :=
  if c.ahead? 1 = some '<' then do
    let (s, c) ← readTagText true (c.skip 2)
    if c.head? = some '>' then .ok ([], s, c.skip 1) else .error .token
  else
    match handle? c with
    | some handle => do
      let (s, c) ← readTagText false (c.skip handle.length)
      .ok (handle, s, c)
    | none => do
      let (s, c) ← readTagChars false (c.rest.length + 1) (c.skip 1)
      .ok (if s = [] then ([], ['!'], c) else (['!'], s, c))

/-- A tag, from its indicator. It ends at a blank, or inside brackets at a comma. -/
def readTag (inFlow : Bool) (c : Cursor) : Except Fault (Token × Cursor) := do
  let (handle, suffix, c) ← readTagParts c
  if isWordEnd c.head? || (inFlow && c.head? = some ',') then
    .ok (.tag (String.ofList handle) (String.ofList suffix), c)
  else .error .token

/-! ### Directives -/

/-- A number of up to nine digits. -/
def readVersionNumber (c : Cursor) : Except Fault (Nat × Cursor) :=
  let ds := c.takeWhile Char.isDigit
  if ds = [] ∨ 9 < ds.length then .error .directive
  else .ok (decimalValue ds, c.skip ds.length)

/-- Two numbers with a point between them. -/
def readVersion (c : Cursor) : Except Fault (Token × Cursor) := do
  let (major, c) ← readVersionNumber (c.skipWhile isSpace)
  if c.head? = some '.' then
    let (minor, c) ← readVersionNumber (c.skip 1)
    .ok (.version major minor, c)
  else .error .directive

/-- A handle and what it stands for. -/
def readTagHandle (c : Cursor) : Except Fault (Token × Cursor) := do
  let c := c.skipWhile isSpace
  let handle ←
    match handle? c with
    | some handle => .ok handle
    | none =>
      if c.head? = some '!' ∧ !(c.ahead? 1).any isWordChar then .ok ['!'] else .error .directive
  let c := c.skip handle.length
  if c.head?.any isSpace then
    let (s, c) ← readTagText true (c.skipWhile isSpace)
    if isWordEnd c.head? then .ok (.tagHandle (String.ofList handle) (String.ofList s), c)
    else .error .directive
  else .error .directive

/-- A directive, from its indicator to the end of its line. -/
def readDirective (c : Cursor) : Except Fault (Token × Cursor) := do
  let name := (c.skip 1).takeWhile isWordChar
  let c := c.skip (name.length + 1)
  if isWordEnd c.head? then
    let (token, c) ←
      if name = ['Y', 'A', 'M', 'L'] then readVersion c
      else if name = ['T', 'A', 'G'] then readTagHandle c
      else .error .directive
    .ok (token, ← c.endLine)
  else .error .directive

end Conditions.Yaml
