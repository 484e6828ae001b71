import Conditions.Literal
import Conditions.Number.Coercion
import Conditions.Operator
import Conditions.Text.Units

/-!
# Operands and their order

Either side of a comparison is an operand: a field of the record or a literal. Equality asks for the
same kind and the same value. The order of two texts is that of their code units. Any other pair is
ordered only as numbers: in the strict mode if both are numbers, in the loose mode after turning
both into numbers. Pairs that have no order make every relation but inequality false.
-/

namespace Conditions

/-- Which pairs of operands have an order. -/
inductive OrderingMode where
  /-- All but lists and objects, which other kinds than texts enter as numbers. -/
  | loose
  /-- Two numbers or two texts. -/
  | strict
  deriving DecidableEq, Inhabited

/-- The name of a mode. -/
def OrderingMode.name : OrderingMode → String
  | .loose => "loose"
  | .strict => "strict"

/-- The mode of exactly this name. -/
def OrderingMode.ofName? (name : String) : Option OrderingMode :=
  if name = "loose" then some .loose else if name = "strict" then some .strict else none

/-- One side of a comparison. -/
inductive Operand where
  /-- The field or literal is not there. -/
  | absent
  /-- The null value. -/
  | null
  /-- A truth value. -/
  | bool (b : Bool)
  /-- A number. -/
  | number (x : Binary64)
  /-- A text. -/
  | text (s : String)
  /-- A list or an object. -/
  | composite
  deriving DecidableEq

namespace Operand

/-- The operand that a field is. -/
def ofField : Option Json → Operand
  | none => .absent
  | some .null => .null
  | some (.bool b) => .bool b
  | some (.number n) => .number n.toBinary64
  | some (.text s) => .text s
  | some (.array _) | some (.object _) => .composite

/-- The operand that a literal is. -/
def ofLiteral : Option Literal → Operand
  | none => .absent
  | some .null => .null
  | some (.bool b) => .bool b
  | some (.number x) => .number x
  | some (.text s) => .text s

/-- The number that an operand enters the loose order as; lists and objects do not enter it. -/
def toNumber? : Operand → Option Binary64
  | .absent => some .nan
  | .null => some .zero
  | .bool b => some (if b then .one else .zero)
  | .number x => some x
  | .text s => some (textNumber s)
  | .composite => none

/-- Whether two operands are of the same kind and have the same value. -/
def equal : Operand → Operand → Bool
  | .absent, .absent => true
  | .null, .null => true
  | .bool a, .bool b => a == b
  | .number x, .number y => x.eq y
  | .text s, .text t => s == t
  | _, _ => false

/-- Whether the first number is below the second, if both are numbers. -/
def numberBelow? (x y : Binary64) : Option Bool :=
  if x.isNaN || y.isNaN then none else some (x.lt y)

/-- Whether the first operand is below the second, if the pair has an order. -/
def below? (mode : OrderingMode) : Operand → Operand → Option Bool
  | .text s, .text t => some (textPrecedes s t)
  | a, b =>
    match mode with
    | .strict =>
      match a, b with
      | .number x, .number y => numberBelow? x y
      | _, _ => none
    | .loose => do numberBelow? (← a.toNumber?) (← b.toNumber?)

end Operand

/-- Whether a comparison holds of two operands. -/
def Comparison.holds (comparison : Comparison) (mode : OrderingMode) (a b : Operand) : Bool :=
  match comparison with
  | .equals => a.equal b
  | .notEquals => !a.equal b
  | .lessThan => a.below? mode b == some true
  | .greaterThan => b.below? mode a == some true
  | .lessThanOrEqual => b.below? mode a == some false
  | .greaterThanOrEqual => a.below? mode b == some false

end Conditions
