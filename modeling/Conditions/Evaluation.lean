import Conditions.Condition.Basic
import Conditions.Operand
import Conditions.Record.Basic
import Conditions.Resolver

/-!
# Evaluation

A condition is evaluated from its root down, each list from left to right, and no further than the
verdict needs: `and` stops at the first condition that does not hold, `or` at the first that does.
Entering a node first checks its depth, then resolves its token, then looks for the part that its
operator needs; the first fault met is the outcome. A `Run` keeps the outcome and the nodes whose
tokens were given to the resolver, in order.
-/

namespace Conditions

/-- The part of a node that joins other conditions. -/
inductive ChildPart where
  /-- The list of conditions. -/
  | conditions
  /-- The single condition. -/
  | condition
  deriving DecidableEq

/-- The name of a part in documents. -/
def ChildPart.name : ChildPart → String
  | .conditions => "conditions"
  | .condition => "condition"

/-- Why a condition has no verdict. -/
inductive EvaluationError where
  /-- The token of a node has no operator. -/
  | resolve (error : ResolveError)
  /-- A node lacks the part that its operator needs. -/
  | missingPart (kind : OperatorKind) (part : ChildPart)
  /-- A node lies deeper than allowed. -/
  | tooDeep (limit : Nat)
  deriving DecidableEq

/-- What is said of a condition without verdict. -/
def EvaluationError.message : EvaluationError → String
  | .resolve error => "Operator resolution failed: " ++ error.message
  | .missingPart kind part => s!"Malformed '{kind.name}' node: missing '{part.name}'"
  | .tooDeep limit => s!"Condition tree exceeds maximum depth of {limit}"

/-- A step from a node to one below it. -/
inductive Step where
  /-- To a condition of the list. -/
  | item (index : Nat)
  /-- To the single condition. -/
  | operand
  deriving DecidableEq

/-- The place of a node: the steps to it from the root, the last step first. -/
abbrev Position := List Step

/-- A node whose token was given to the resolver. -/
structure Visit where
  /-- Where the node stands. -/
  position : Position
  /-- The node. -/
  node : Condition

/-- What became of an evaluation. -/
structure Run where
  /-- The verdict, or the first fault met. -/
  outcome : Except EvaluationError Bool
  /-- The nodes visited, in order. -/
  visits : List Visit

namespace Run

/-- A run that ends at once. -/
def done (outcome : Except EvaluationError Bool) : Run := ⟨outcome, []⟩

/-- A run after earlier visits. -/
def after (visits : List Visit) (run : Run) : Run := ⟨run.outcome, visits ++ run.visits⟩

/-- A run with the opposite verdict. -/
def negate (run : Run) : Run := ⟨run.outcome.map (!·), run.visits⟩

/-- The tokens given to the resolver, in order. -/
def tokens (run : Run) : List String := run.visits.map (·.node.op)

@[simp] theorem outcome_done (o : Except EvaluationError Bool) : (done o).outcome = o := rfl

@[simp] theorem visits_done (o : Except EvaluationError Bool) : (done o).visits = [] := rfl

@[simp] theorem outcome_after (vs : List Visit) (r : Run) : (after vs r).outcome = r.outcome := rfl

@[simp] theorem visits_after (vs : List Visit) (r : Run) :
    (after vs r).visits = vs ++ r.visits := rfl

@[simp] theorem outcome_negate (r : Run) : r.negate.outcome = r.outcome.map (!·) := rfl

@[simp] theorem visits_negate (r : Run) : r.negate.visits = r.visits := rfl

end Run

/-- What an evaluation depends on besides condition and record. -/
structure Evaluator where
  /-- The resolver of tokens. -/
  resolver : Resolver
  /-- The order of operands. -/
  ordering : OrderingMode := .loose
  /-- The greatest depth at which a node may be entered, the root being at depth one. -/
  maxDepth : Option Nat := none

namespace Evaluator

/-- The verdict of a comparison: the field of the record that a node names against its literal. -/
def comparisonHolds (e : Evaluator) (record : Record) (comparison : Comparison)
    (property : Option String) (value : Option Literal) : Bool :=
  comparison.holds e.ordering (.ofField (property.bind record.get?)) (.ofLiteral value)

mutual

/-- Enters a node at a position. -/
def enter (e : Evaluator) (record : Record) (position : Position) : Condition → Run
  | ⟨op, property, value, conditions, condition⟩ =>
    let visit := [⟨position, ⟨op, property, value, conditions, condition⟩⟩]
    match e.maxDepth.filter (· < position.length + 1) with
    | some limit => .done (.error (.tooDeep limit))
    | none =>
      match e.resolver op with
      | .error error => ⟨.error (.resolve error), visit⟩
      | .ok (.compare comparison) =>
        ⟨.ok (e.comparisonHolds record comparison property value), visit⟩
      | .ok (.unrecognized _) => ⟨.ok false, visit⟩
      | .ok .and =>
        match conditions with
        | none => ⟨.error (.missingPart .and .conditions), visit⟩
        | some cs => .after visit (enterAll e record position false 0 cs)
      | .ok .or =>
        match conditions with
        | none => ⟨.error (.missingPart .or .conditions), visit⟩
        | some cs => .after visit (enterAll e record position true 0 cs)
      | .ok .not =>
        match condition with
        | none => ⟨.error (.missingPart .not .condition), visit⟩
        | some c => .after visit (.negate (enter e record (.operand :: position) c))

/-- Enters the conditions of a list, from an index on, up to the first that has the decisive
verdict. -/
def enterAll (e : Evaluator) (record : Record) (position : Position) (decisive : Bool)
    (index : Nat) : List Condition → Run
  | [] => .done (.ok !decisive)
  | c :: cs =>
    let run := enter e record (.item index :: position) c
    match run.outcome with
    | .error _ => run
    | .ok verdict =>
      if verdict = decisive then run
      else .after run.visits (enterAll e record position decisive (index + 1) cs)

end

/-- Evaluates a condition on a record. -/
def run (e : Evaluator) (record : Record) (c : Condition) : Run := e.enter record [] c

/-- The verdict of a condition on a record. -/
def evaluate (e : Evaluator) (record : Record) (c : Condition) : Except EvaluationError Bool :=
  (e.run record c).outcome

/-- Looks tokens up among the built-in aliases, orders loosely and has no limit of depth. -/
def standard : Evaluator := ⟨AliasTable.builtin.resolve, .loose, none⟩

end Evaluator

end Conditions
