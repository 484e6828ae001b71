import Conditions.Yaml.Token

/-!
# YAML documents

A document is a tree of nodes. An alias in it refers to a node by the number of its anchor, and the
document keeps the node of every number; so a node may be reached in many places, or from within
itself.
-/

namespace Conditions.Yaml

/-- A scalar with its tag. -/
structure Scalar where
  /-- The tag, with its handle written out. -/
  tag : Option String
  /-- How the scalar is written. -/
  style : Style
  /-- The text. -/
  text : String
  deriving DecidableEq

/-- The scalar where nothing is written. -/
def Scalar.empty : Scalar := ⟨none, .plain, ""⟩

/-- A node. -/
inductive Node where
  /-- A reference to the node of an anchor. -/
  | reference (anchor : Nat)
  /-- A scalar. -/
  | scalar (s : Scalar)
  /-- A list. -/
  | sequence (tag : Option String) (items : List Node)
  /-- Keys with values. -/
  | mapping (tag : Option String) (members : List (Node × Node))
  deriving Inhabited

/-- A document. -/
structure Document where
  /-- The root; where there is nothing at all it is an empty scalar. -/
  root : Node
  /-- The nodes of the anchors. -/
  anchors : List (Nat × Node)
  /-- The number of scalars, aliases and ends of collections. -/
  size : Nat

/-- The node of an anchor. -/
def Document.node? (doc : Document) (anchor : Nat) : Option Node := doc.anchors.lookup anchor

end Conditions.Yaml
