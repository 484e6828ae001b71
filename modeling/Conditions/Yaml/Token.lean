/-!
# Tokens of a YAML stream

What a stream is made of before its structure is known: indicators, the marks that indentation
implies, properties of nodes, and scalars.
-/

namespace Conditions.Yaml

/-- Why a stream cannot be read. -/
inductive Fault where
  /-- It holds a character that no stream may hold. -/
  | character
  /-- A token is not well formed. -/
  | token
  /-- A token stands where it may not. -/
  | misplaced
  /-- A directive is wrong. -/
  | directive
  /-- An alias names no anchor. -/
  | anchor
  /-- There is more than one document. -/
  | documents
  /-- A node is not of the wanted shape. -/
  | mismatched
  /-- A field comes twice. -/
  | duplicate
  /-- Lists and mappings are nested too deep. -/
  | nesting
  /-- Aliases lead to too many nodes. -/
  | expansion
  deriving DecidableEq

/-- How a scalar is written, as far as its value depends on it. -/
inductive Style where
  /-- Without quotes or header. -/
  | plain
  /-- As lines kept as they are. -/
  | literal
  /-- As folded lines or between quotes. -/
  | other
  deriving DecidableEq

/-- A token. -/
inductive Token where
  /-- The directive for the version of the language. -/
  | version (major minor : Nat)
  /-- The directive for a short form of tags. -/
  | tagHandle (handle expansion : String)
  /-- Three dashes at the start of a line. -/
  | documentStart
  /-- Three points at the start of a line. -/
  | documentEnd
  /-- The first entry of an indented list is to follow. -/
  | blockSequenceStart
  /-- The first key of an indented mapping is to follow. -/
  | blockMappingStart
  /-- The indentation has ended. -/
  | blockEnd
  /-- An opening bracket. -/
  | flowSequenceStart
  /-- A closing bracket. -/
  | flowSequenceEnd
  /-- An opening brace. -/
  | flowMappingStart
  /-- A closing brace. -/
  | flowMappingEnd
  /-- The dash before an entry. -/
  | blockEntry
  /-- The comma after an entry. -/
  | flowEntry
  /-- A key is to follow. -/
  | key
  /-- A value is to follow. -/
  | value
  /-- A reference to an anchor. -/
  | reference (name : String)
  /-- The name of the node that follows. -/
  | anchor (name : String)
  /-- The tag of the node that follows. -/
  | tag (handle suffix : String)
  /-- A scalar. -/
  | scalar (text : String) (style : Style)
  deriving DecidableEq

end Conditions.Yaml
