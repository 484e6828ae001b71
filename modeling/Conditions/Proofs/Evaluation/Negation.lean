import Conditions.Proofs.Evaluation.Outcomes

/-!
# Negations moved inwards

The negation of a condition can be moved down to the nodes that neither join nor negate
(`Condition.negated`): `and` and `or` change places and their conditions are negated, and a negation
is taken away. What is left takes a `not`, be it a comparison, a token that is unrecognized or a
node at fault.

A list stops at the first condition that settles it, and a list of opposite outcomes under the
opposite operator stops at the same one (`joinedOutcome_map_not`). So the outcome stays what it is
with a `not` on top (`evaluate_negated`), and where there is a fault it is the same fault.
-/

namespace Conditions

/-- The resolver gives the operators that join and negate to the tokens that are their names. -/
structure Resolver.NamesJunctions (resolver : Resolver) : Prop where
  /-- The name of `and` stands for it. -/
  and : resolver OperatorKind.and.name = .ok .and
  /-- The name of `or` stands for it. -/
  or : resolver OperatorKind.or.name = .ok .or
  /-- The name of `not` stands for it. -/
  not : resolver OperatorKind.not.name = .ok .not

namespace Condition

mutual

/-- The negation of a condition, moved inwards as far as the conditions below it are joined or
negated. -/
def negated (resolver : Resolver) : Condition → Condition
  | ⟨op, property, value, conditions, condition⟩ =>
    let unmoved := negation ⟨op, property, value, conditions, condition⟩
    match resolver op with
    | .ok .and =>
      match conditions with
      | none => unmoved
      | some cs => any (negatedAll resolver cs)
    | .ok .or =>
      match conditions with
      | none => unmoved
      | some cs => all (negatedAll resolver cs)
    | .ok .not =>
      match condition with
      | none => unmoved
      | some c => c
    | .ok (.compare _) | .ok (.unrecognized _) | .error _ => unmoved

/-- The negations of the conditions of a list, moved inwards. -/
def negatedAll (resolver : Resolver) : List Condition → List Condition
  | [] => []
  | c :: cs => negated resolver c :: negatedAll resolver cs

end

/-- The conditions of a list, joined by the operator that a verdict settles. -/
def joining : Bool → List Condition → Condition
  | false => all
  | true => any

theorem negatedAll_eq_map (resolver : Resolver) (cs : List Condition) :
    negatedAll resolver cs = cs.map (negated resolver) := by
  induction cs with
  | nil => rfl
  | cons c cs ih => rw [negatedAll, ih, List.map_cons]

end Condition

/-- Opposite outcomes, joined by the opposite operator, have the opposite outcome. -/
theorem joinedOutcome_map_not (decisive : Bool) (os : List (Except EvaluationError Bool)) :
    joinedOutcome (!decisive) (os.map (·.map (!·))) = (joinedOutcome decisive os).map (!·) := by
  induction os with
  | nil => rfl
  | cons o os ih =>
    cases o with
    | error error => rfl
    | ok verdict =>
      by_cases hv : verdict = decisive
      · subst hv
        rw [joinedOutcome_stop (by simp), List.map_cons, joinedOutcome_stop]
        simp [Except.map]
      · obtain rfl : verdict = !decisive := by cases verdict <;> cases decisive <;> simp_all
        rw [joinedOutcome_next, ← ih, List.map_cons]
        exact joinedOutcome_next (!decisive) _

namespace Evaluator

variable {e : Evaluator} {record : Record} {c : Condition}

/-! ### Roles of what is built -/

theorem role_joining (hr : e.resolver.NamesJunctions) (decisive : Bool) (cs : List Condition) :
    e.role record (.joining decisive cs) = .join decisive cs := by
  rw [role_eq_join_iff]
  cases decisive with
  | false => exact ⟨hr.and, rfl⟩
  | true => exact ⟨hr.or, rfl⟩

theorem role_negation (hr : e.resolver.NamesJunctions) (c : Condition) :
    e.role record (.negation c) = .negation c := role_eq_negation_iff.mpr ⟨hr.not, rfl⟩

/-- The negation moved inwards, by the role of the node. -/
theorem negated_eq (e : Evaluator) (record : Record) (c : Condition) :
    c.negated e.resolver =
      match e.role record c with
      | .fault _ | .leaf _ => .negation c
      | .join decisive cs => .joining (!decisive) (cs.map (Condition.negated e.resolver))
      | .negation d => d := by
  obtain ⟨op, property, value, conditions, condition⟩ := c
  rw [Condition.negated.eq_def]
  simp only [role]
  cases e.resolver op with
  | error error => rfl
  | ok kind =>
    cases kind with
    | compare comparison => rfl
    | unrecognized token => rfl
    | and =>
      cases conditions with
      | none => rfl
      | some cs => exact congrArg Condition.any (Condition.negatedAll_eq_map e.resolver cs)
    | or =>
      cases conditions with
      | none => rfl
      | some cs => exact congrArg Condition.all (Condition.negatedAll_eq_map e.resolver cs)
    | not => cases condition <;> rfl

/-! ### Outcomes of negations -/

/-- A `not` on top turns the verdict round. -/
theorem evaluate_negation (he : e.maxDepth = none) (hr : e.resolver.NamesJunctions)
    (c : Condition) :
    e.evaluate record (.negation c) = (e.evaluate record c).map (!·) :=
  evaluate_of_negation he (role_negation hr c)

theorem map_not_map_not (o : Except EvaluationError Bool) : (o.map (!·)).map (!·) = o := by
  cases o <;> simp [Except.map]

/-- A negation moved inwards turns the verdict round. -/
theorem evaluate_negated_eq_map (he : e.maxDepth = none) (hr : e.resolver.NamesJunctions)
    (c : Condition) :
    e.evaluate record (c.negated e.resolver) = (e.evaluate record c).map (!·) := by
  induction c using Condition.induction with
  | node c ihs ih =>
    rw [negated_eq e record c]
    cases hc : e.role record c with
    | fault error => exact evaluate_negation he hr c
    | leaf verdict => exact evaluate_negation he hr c
    | join decisive cs =>
      have hcs : cs.map (fun d => e.evaluate record (d.negated e.resolver)) =
          (cs.map (e.evaluate record)).map (·.map (!·)) := by
        rw [List.map_map]
        exact List.map_congr_left fun d hd => ihs cs (role_eq_join_iff.mp hc).2 d hd
      calc e.evaluate record (.joining (!decisive) (cs.map (Condition.negated e.resolver)))
          = joinedOutcome (!decisive)
              (cs.map fun d => e.evaluate record (d.negated e.resolver)) := by
            rw [evaluate_of_join he (role_joining hr _ _), List.map_map]
            rfl
        _ = (joinedOutcome decisive (cs.map (e.evaluate record))).map (!·) := by
            rw [hcs, joinedOutcome_map_not]
        _ = (e.evaluate record c).map (!·) := by rw [evaluate_of_join he hc]
    | negation d =>
      rw [evaluate_of_negation he hc, map_not_map_not]

/-- **Negations can be moved inwards**. Without a limit of depth, and with a resolver that knows the
operators by their names, the negation of a condition moved inwards has the outcome of the
condition with a `not` on top, faults included; and two negations have the outcome of none. -/
theorem evaluate_negated (he : e.maxDepth = none) (hr : e.resolver.NamesJunctions)
    (record : Record) (c : Condition) :
    e.evaluate record (c.negated e.resolver) = e.evaluate record (.negation c) ∧
      e.evaluate record (.negation (.negation c)) = e.evaluate record c := by
  refine ⟨?_, ?_⟩
  · rw [evaluate_negated_eq_map he hr, evaluate_negation he hr]
  · rw [evaluate_negation he hr, evaluate_negation he hr, map_not_map_not]

/-- Joins and negates by other tokens than the names, above a node at fault. -/
def aliased : Condition :=
  { Condition.ofToken "&&" with
    conditions := some
      [{ Condition.ofToken "!" with condition := some (.any []) },
        { Condition.ofToken "||" with conditions := some [.ofToken "between", .ofToken "and"] }] }

theorem evaluate_negated_aliased :
    aliased.negated standard.resolver =
        .any [.any [], .all [.negation (.ofToken "between"), .negation (.ofToken "and")]] ∧
      standard.evaluate .empty (aliased.negated standard.resolver) =
        .error (.missingPart .and .conditions) := by
  have hnames : standard.resolver.NamesJunctions := ⟨rfl, rfl, rfl⟩
  have hnot : standard.evaluate .empty (.negation aliased) =
      .error (.missingPart .and .conditions) := rfl
  exact ⟨rfl, (evaluate_negated rfl hnames .empty aliased).1.trans hnot⟩

end Evaluator

end Conditions
