import Conditions.Json.Value

/-!
# Document trees

What a text says before anyone asks what it should say. A `Tree` keeps everything a reader may come
upon on its way through the text, the place where the text breaks off included: a reader meets a
fault only when it gets there, and until then may find another reason to stop.

A leaf is read in two ways. A reader that wants its content checks more than one that passes over
it: a number may be too large and a text may hold half a surrogate pair, and neither matters where
the content is not wanted.
-/

namespace Conditions

namespace Json

/-- Why a text cannot be read. -/
inductive Fault where
  /-- The text is not a document. -/
  | malformed
  /-- The text is a document, but not of the wanted shape. -/
  | mismatched
  /-- The text ends too early. -/
  | truncated
  deriving DecidableEq

/-- A number or text of a document. -/
structure Leaf (α : Type) where
  /-- The content, for a reader that wants it. -/
  content : Except Fault α
  /-- What a reader that passes over the leaf meets. -/
  passed : Except Fault Unit

/-- The leaf with some content. -/
def Leaf.ok {α : Type} (a : α) : Leaf α := ⟨.ok a, .ok ()⟩

/-- A document as far as it can be read. -/
inductive Tree where
  /-- There is no value here: the text ends, or goes on with something else. -/
  | missing (fault : Fault)
  /-- The word for the null value. -/
  | null
  /-- One of the two words for truth values. -/
  | bool (b : Bool)
  /-- A word that begins as one of the three words and is none of them. -/
  | word (fault : Fault)
  /-- A number. -/
  | number (leaf : Leaf JsonNumber)
  /-- A text between quotes. -/
  | text (leaf : Leaf String)
  /-- A list, with the fault that stands in place of its closing bracket. -/
  | array (items : List Tree) (close : Except Fault Unit)
  /-- Members with what stands in place of their names, and the fault in place of the closing
  bracket. -/
  | object (members : List (Tree × Tree)) (close : Except Fault Unit)
  deriving Inhabited

/-- A whole text: a tree, and what a reader meets that looks for the end of the text after it. -/
structure Document where
  /-- The value. -/
  tree : Tree
  /-- Whether nothing but blanks follows the value. -/
  finish : Except Fault Unit

end Json

end Conditions
