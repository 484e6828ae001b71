import Conditions.Yaml.Lexer
import Conditions.Yaml.Node

/-!
# From tokens to a document

The grammar of nodes. Where a node is wanted and nothing is written there is an empty scalar.

An anchor gets the number of different anchor names met before it. When a name is used again its
new anchor does not add to that count, so a later anchor may get the same number; of two anchors
with one number the later stands, for all aliases.
-/

namespace Conditions.Yaml

/-- A node of an anchor. -/
structure Anchored where
  /-- The number of the anchor. -/
  number : Nat
  /-- Where the node begins, counted in scalars, aliases and ends of collections. -/
  start : Nat
  /-- The node. -/
  node : Node

/-- What is left of the tokens, and what is known from those before. -/
structure Composer where
  /-- The tokens that are left. -/
  rest : List Token
  /-- What the handles of tags stand for. -/
  handles : List (String × String) := []
  /-- The numbers of the anchor names. -/
  names : List (String × Nat) := []
  /-- The nodes of the anchors met. -/
  anchored : List Anchored := []
  /-- The number of scalars, aliases and ends of collections met. -/
  size : Nat := 0

/-- A step that reads tokens. -/
abbrev Compose (α : Type) := StateT Composer (Except Fault) α

namespace Compose

/-- The next token. -/
def head? : Compose (Option Token) := do return (← get).rest.head?

/-- Passes over a token. -/
def skip : Compose Unit := modify fun c => { c with rest := c.rest.tail }

/-- Passes over a token if it is next, and tells whether it was. -/
def skip? (token : Token) : Compose Bool := do
  if (← head?) = some token then
    skip
    return true
  else return false

/-- Passes over a token, which has to be next. -/
def expect (token : Token) : Compose Unit := do
  if !(← skip? token) then throw .misplaced

/-- Whether one of some tokens is next. -/
def atOneOf (tokens : List Token) : Compose Bool := do
  return (← head?).any (tokens.contains ·)

/-- Counts scalars, aliases and ends of collections. -/
def count (n : Nat) : Compose Unit := modify fun c => { c with size := c.size + n }

/-! ### Properties -/

/-- The anchor and tag before a node, in either order. -/
def properties : Compose (Option String × Option (String × String)) := do
  match ← head? with
  | some (.anchor name) =>
    skip
    match ← head? with
    | some (.tag handle suffix) => skip; return (some name, some (handle, suffix))
    | _ => return (some name, none)
  | some (.tag handle suffix) =>
    skip
    match ← head? with
    | some (.anchor name) => skip; return (some name, some (handle, suffix))
    | _ => return (none, some (handle, suffix))
  | _ => return (none, none)

/-- A tag with its handle written out. -/
def resolveTag : String × String → Compose String
  | ("", suffix) => return suffix
  | (handle, suffix) => do
    match (← get).handles.lookup handle with
    | some expansion => return expansion ++ suffix
    | none => throw .directive

/-- Gives a name the number of its next anchor. -/
def number (name : String) : Compose Nat := do
  let c ← get
  let n := c.names.length
  set { c with names := (name, n) :: c.names.filter (·.1 ≠ name) }
  return n

/-- Notes the node of an anchor. -/
def note (number : Option Nat) (start : Nat) (node : Node) : Compose Node := do
  match number with
  | none => return node
  | some number =>
    modify fun c => { c with anchored := ⟨number, start, node⟩ :: c.anchored }
    return node

/-- An empty scalar, where nothing is written. -/
def nothing : Compose Node := do
  count 1
  return .scalar .empty

/-! ### Nodes -/

mutual

/-- A node. Indented collections may come where `block` says so, and a list without indentation of
its own where `indentless` does. -/
def node : Nat → Bool → Bool → Compose Node
  | 0, _, _ => throw .misplaced
  | fuel + 1, block, indentless => do
    match ← head? with
    | some (.reference name) =>
      skip
      count 1
      match (← get).names.lookup name with
      | some n => return .reference n
      | none => throw .anchor
    | _ =>
      let (anchor, tag) ← properties
      let tag ← tag.mapM resolveTag
      let start := (← get).size
      let number ← anchor.mapM number
      match ← head? with
      | some (.scalar text style) =>
        skip
        count 1
        note number start (.scalar ⟨tag, style, text⟩)
      | some .flowSequenceStart =>
        skip
        count 2
        note number start (.sequence tag (← flowItems fuel true))
      | some .flowMappingStart =>
        skip
        count 2
        note number start (.mapping tag (← flowMembers fuel true))
      | some .blockSequenceStart =>
        if !block then throw .misplaced
        skip
        count 2
        note number start (.sequence tag (← blockItems fuel))
      | some .blockMappingStart =>
        if !block then throw .misplaced
        skip
        count 2
        note number start (.mapping tag (← blockMembers fuel))
      | next =>
        if indentless && next = some .blockEntry then
          count 2
          note number start (.sequence tag (← indentlessItems fuel))
        else if anchor.isSome || tag.isSome then
          count 1
          note number start (.scalar ⟨tag, .plain, ""⟩)
        else throw .misplaced

/-- A node, or nothing before one of some tokens. -/
def nodeUnless : Nat → List Token → Bool → Bool → Compose Node
  | 0, _, _, _ => throw .misplaced
  | fuel + 1, ends, block, indentless => do
    if ← atOneOf ends then nothing else node fuel block indentless

/-- The entries of an indented list. -/
def blockItems : Nat → Compose (List Node)
  | 0 => throw .misplaced
  | fuel + 1 => do
    if ← skip? .blockEntry then
      let item ← nodeUnless fuel [.blockEntry, .blockEnd] true false
      return item :: (← blockItems fuel)
    else
      expect .blockEnd
      return []

/-- The entries of a list that is indented no deeper than the mapping around it. -/
def indentlessItems : Nat → Compose (List Node)
  | 0 => throw .misplaced
  | fuel + 1 => do
    if ← skip? .blockEntry then
      let item ← nodeUnless fuel [.blockEntry, .key, .value, .blockEnd] true false
      return item :: (← indentlessItems fuel)
    else return []

/-- The members of an indented mapping. -/
def blockMembers : Nat → Compose (List (Node × Node))
  | 0 => throw .misplaced
  | fuel + 1 => do
    if ← skip? .key then
      let key ← nodeUnless fuel [.key, .value, .blockEnd] true true
      let value ←
        if ← skip? .value then nodeUnless fuel [.key, .value, .blockEnd] true true
        else nothing
      return (key, value) :: (← blockMembers fuel)
    else
      expect .blockEnd
      return []

/-- The entries of a list in brackets. An entry that begins with the mark of a key is a mapping of
one member. -/
def flowItems : Nat → Bool → Compose (List Node)
  | 0, _ => throw .misplaced
  | fuel + 1, first => do
    if ← skip? .flowSequenceEnd then return []
    if !first then expect .flowEntry
    if ← skip? .flowSequenceEnd then return []
    if ← skip? .key then
      count 2
      let key ←
        if ← atOneOf [.value, .flowEntry, .flowSequenceEnd] then
          skip
          nothing
        else node fuel false false
      let value ←
        if ← skip? .value then nodeUnless fuel [.flowEntry, .flowSequenceEnd] false false
        else nothing
      return .mapping none [(key, value)] :: (← flowItems fuel false)
    else
      let item ← node fuel false false
      return item :: (← flowItems fuel false)

/-- The members of a mapping in braces. A node without the mark of a key has no value. -/
def flowMembers : Nat → Bool → Compose (List (Node × Node))
  | 0, _ => throw .misplaced
  | fuel + 1, first => do
    if ← skip? .flowMappingEnd then return []
    if !first then expect .flowEntry
    if ← skip? .flowMappingEnd then return []
    if ← skip? .key then
      let key ← nodeUnless fuel [.value, .flowEntry, .flowMappingEnd] false false
      let value ←
        if ← skip? .value then nodeUnless fuel [.flowEntry, .flowMappingEnd] false false
        else nothing
      return (key, value) :: (← flowMembers fuel false)
    else
      let key ← node fuel false false
      let value ← nothing
      return (key, value) :: (← flowMembers fuel false)

end

/-! ### Documents -/

/-- The directives before a document, those for the version first. -/
def directives : Nat → Bool → List (String × String) → Compose (Bool × List (String × String))
  | 0, _, _ => throw .misplaced
  | fuel + 1, versioned, handles => do
    match ← head? with
    | some (.version major minor) =>
      skip
      if versioned || major ≠ 1 || (minor ≠ 1 && minor ≠ 2) then throw .directive
      directives fuel true handles
    | some (.tagHandle handle expansion) =>
      skip
      if (handles.lookup handle).isSome then throw .directive
      directives fuel versioned ((handle, expansion) :: handles)
    | _ => return (versioned || !handles.isEmpty, handles)

/-- The handles that stand for something without a directive. -/
def defaultHandles : List (String × String) := [("!", "!"), ("!!", "tag:yaml.org,2002:")]

/-- The root of a document after its directives. -/
def root (fuel : Nat) (directed : Bool) : Compose Node := do
  if ← skip? .documentStart then
    match ← head? with
    | none | some .documentStart | some .documentEnd | some (.version _ _)
    | some (.tagHandle _ _) => nothing
    | _ => node fuel true false
  else if directed then throw .misplaced
  else node fuel true false

/-- Passes over the marks of the end of a document. -/
def documentEnds : Compose Unit :=
  modify fun c => { c with rest := c.rest.dropWhile (· = .documentEnd) }

/-- A stream of at most one document. -/
def stream (fuel : Nat) : Compose Node := do
  if (← head?).isNone then return .scalar .empty
  let (directed, handles) ← directives fuel false []
  modify fun c => { c with handles := handles ++ defaultHandles }
  let node ← root fuel directed
  documentEnds
  if (← head?).isSome then throw .documents
  return node

end Compose

/-- Whether an anchored node stands, no later one having its number. -/
def Anchored.stands (all : List Anchored) (a : Anchored) : Bool :=
  all.all fun b => b.number ≠ a.number || b.start ≤ a.start

/-- The document that a text holds. -/
def Document.read (text : String) : Except Fault Document := do
  let tokens ← tokens text.toList
  let (root, c) ← (Compose.stream (4 * tokens.length + 8)).run { rest := tokens }
  let standing := c.anchored.filter (·.stands c.anchored)
  .ok ⟨root, standing.map fun a => (a.number, a.node), c.size⟩

end Conditions.Yaml
