import Conditions.Literal
import Conditions.Operator

/-!
# Conditions

A condition is a tree. Every node carries an operator token and may carry a field to compare, a
literal to compare it with, a list of conditions, and a single condition. Which of them matter
depends on what the token is resolved to; the others are ignored.
-/

namespace Conditions

/-- A node of a condition tree. -/
structure Condition where
  /-- The operator token. -/
  op : String
  /-- The field of the record that a comparison reads. -/
  property : Option String
  /-- The literal that a comparison reads; a null literal is not the same as none. -/
  value : Option Literal
  /-- The conditions that `and` and `or` join. -/
  conditions : Option (List Condition)
  /-- The condition that `not` negates. -/
  condition : Option Condition
  deriving Inhabited

namespace Condition

/-- The condition with a token and nothing else. -/
def ofToken (op : String) : Condition := ⟨op, none, none, none, none⟩

/-- The comparison of a field with a literal. -/
def compare (kind : OperatorKind) (property : String) (value : Literal) : Condition :=
  ⟨kind.name, some property, some value, none, none⟩

/-- The condition that holds if every condition of a list does. -/
def all (conditions : List Condition) : Condition :=
  ⟨OperatorKind.and.name, none, none, some conditions, none⟩

/-- The condition that holds if some condition of a list does. -/
def any (conditions : List Condition) : Condition :=
  ⟨OperatorKind.or.name, none, none, some conditions, none⟩

/-- The condition that holds if another does not. -/
def negation (condition : Condition) : Condition :=
  ⟨OperatorKind.not.name, none, none, none, some condition⟩

/-! ### Depth -/

mutual

/-- The number of nodes on the longest path down from a node, all conditions in it counted. -/
def depth : Condition → Nat
  | ⟨_, _, _, conditions, condition⟩ =>
    max (listDepth? conditions) (optionDepth condition) + 1

/-- The greatest depth of a list of conditions, zero if there are none. -/
def listDepth : List Condition → Nat
  | [] => 0
  | c :: cs => max (depth c) (listDepth cs)

/-- The greatest depth in a list that may be absent. -/
def listDepth? : Option (List Condition) → Nat
  | none => 0
  | some cs => listDepth cs

/-- The depth of a condition that may be absent. -/
def optionDepth : Option Condition → Nat
  | none => 0
  | some c => depth c

end

theorem listDepth_lt_depth {c : Condition} {cs : List Condition} (h : c.conditions = some cs) :
    listDepth cs < c.depth := by
  obtain ⟨op, property, value, conditions, condition⟩ := c
  subst h
  exact Nat.lt_succ_of_le (Nat.le_max_left ..)

theorem depth_lt_depth {c d : Condition} (h : c.condition = some d) : d.depth < c.depth := by
  obtain ⟨op, property, value, conditions, condition⟩ := c
  subst h
  exact Nat.lt_succ_of_le (Nat.le_max_right ..)

/-! ### Sameness -/

mutual

/-- Whether two conditions are the same, node by node; literals are compared as values. -/
def same : Condition → Condition → Bool
  | ⟨op, property, value, conditions, condition⟩,
    ⟨op', property', value', conditions', condition'⟩ =>
    op == op' && property == property' && sameValue value value'
      && sameList? conditions conditions' && sameOption condition condition'

/-- Whether two lists hold the same conditions in the same order. -/
def sameList : List Condition → List Condition → Bool
  | [], [] => true
  | c :: cs, d :: ds => same c d && sameList cs ds
  | _, _ => false

/-- Whether two lists that may be absent are the same. -/
def sameList? : Option (List Condition) → Option (List Condition) → Bool
  | none, none => true
  | some cs, some ds => sameList cs ds
  | _, _ => false

/-- Whether two conditions that may be absent are the same. -/
def sameOption : Option Condition → Option Condition → Bool
  | none, none => true
  | some c, some d => same c d
  | _, _ => false

/-- Whether two literals that may be absent are the same. -/
def sameValue : Option Literal → Option Literal → Bool
  | none, none => true
  | some a, some b => a.same b
  | _, _ => false

end

end Condition

end Conditions
