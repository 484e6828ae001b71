/-!
# Operators

The nine operators that a condition can have, and the unrecognized ones, which a condition may name
but which never hold. Six of the nine are comparisons.
-/

namespace Conditions

/-- A comparison of two operands. -/
inductive Comparison where
  /-- The left operand is below the right one. -/
  | lessThan
  /-- The left operand is above the right one. -/
  | greaterThan
  /-- The operands are equal. -/
  | equals
  /-- The operands are not equal. -/
  | notEquals
  /-- The left operand is below the right one or level with it. -/
  | lessThanOrEqual
  /-- The left operand is above the right one or level with it. -/
  | greaterThanOrEqual
  deriving DecidableEq

/-- What a condition does with its parts. -/
inductive OperatorKind where
  /-- Compares a field of the record with a literal. -/
  | compare (comparison : Comparison)
  /-- Holds if every condition of a list does. -/
  | and
  /-- Holds if some condition of a list does. -/
  | or
  /-- Holds if another condition does not. -/
  | not
  /-- Never holds. -/
  | unrecognized (token : String)
  deriving DecidableEq

/-- The name of a comparison among the operators. -/
def Comparison.name : Comparison → String
  | .lessThan => "lessThan"
  | .greaterThan => "greaterThan"
  | .equals => "equals"
  | .notEquals => "notEquals"
  | .lessThanOrEqual => "lessThanOrEqual"
  | .greaterThanOrEqual => "greaterThanOrEqual"

namespace OperatorKind

/-- The name of an operator; an unrecognized one is named by its token. -/
def name : OperatorKind → String
  | .compare comparison => comparison.name
  | .and => "and"
  | .or => "or"
  | .not => "not"
  | .unrecognized token => token

/-- The nine operators that a condition can have. -/
def known : List OperatorKind :=
  [.compare .lessThan, .compare .greaterThan, .compare .equals, .compare .notEquals,
    .compare .lessThanOrEqual, .compare .greaterThanOrEqual, .and, .or, .not]

/-- The operator of exactly this name. -/
def ofName? (name : String) : Option OperatorKind := known.find? (·.name = name)

/-- The comparison that an operator makes, if it makes one. -/
def comparison? : OperatorKind → Option Comparison
  | .compare comparison => some comparison
  | _ => none

end OperatorKind

end Conditions
