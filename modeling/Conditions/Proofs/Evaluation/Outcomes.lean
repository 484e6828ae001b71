import Conditions.Proofs.Evaluation.Walk

/-!
# Outcomes without a limit of depth

Where no limit of depth is set, the outcome of a node is the same wherever it stands
(`outcome_enter`), so the outcome of a condition is made of the outcomes of its parts alone
(`evaluate_eq`). A list of conditions has the first outcome that does not let it go on
(`joinedOutcome`), be it a verdict or a fault, and a negation turns a verdict round and keeps a
fault.
-/

namespace Conditions

/-- The outcome of joined conditions: the first that is not the verdict to go on, if there is
one. -/
def joinedOutcome (decisive : Bool) :
    List (Except EvaluationError Bool) → Except EvaluationError Bool
  | [] => .ok !decisive
  | .error error :: _ => .error error
  | .ok verdict :: os => if verdict = decisive then .ok verdict else joinedOutcome decisive os

@[simp] theorem joinedOutcome_nil (decisive : Bool) : joinedOutcome decisive [] = .ok !decisive :=
  rfl

theorem joinedOutcome_next (decisive : Bool) (os : List (Except EvaluationError Bool)) :
    joinedOutcome decisive (.ok (!decisive) :: os) = joinedOutcome decisive os :=
  if_neg (by cases decisive <;> decide)

theorem joinedOutcome_stop {decisive : Bool} {o : Except EvaluationError Bool}
    (h : o ≠ .ok !decisive) (os : List (Except EvaluationError Bool)) :
    joinedOutcome decisive (o :: os) = o := by
  cases o with
  | error error => rfl
  | ok verdict =>
    have hv : verdict = decisive := by cases verdict <;> cases decisive <;> simp_all
    exact if_pos hv

namespace Evaluator

variable {e : Evaluator} {record : Record}

/-- The outcome of a list is that of its conditions joined, if they have the same outcomes wherever
they stand. -/
theorem outcome_enterAll {f : Condition → Except EvaluationError Bool} (position : Position)
    (decisive : Bool) (index : Nat) (cs : List Condition)
    (h : ∀ c ∈ cs, ∀ position, (e.enter record position c).outcome = f c) :
    (e.enterAll record position decisive index cs).outcome =
      joinedOutcome decisive (cs.map f) := by
  induction cs generalizing index with
  | nil => rw [enterAll_nil, List.map_nil, joinedOutcome_nil, Run.outcome_done]
  | cons c cs ih =>
    have hc := h c List.mem_cons_self (.item index :: position)
    by_cases ho : f c = .ok !decisive
    · rw [List.map_cons, ho, joinedOutcome_next, enterAll_next (hc.trans ho), Run.outcome_after]
      exact ih (index + 1) fun d hd => h d (List.mem_cons_of_mem c hd)
    · rw [List.map_cons, joinedOutcome_stop ho, enterAll_stop (hc ▸ ho), hc]

/-- Without a limit of depth, a node has the outcome that it has as the root. -/
theorem outcome_enter (he : e.maxDepth = none) (position : Position) (c : Condition) :
    (e.enter record position c).outcome = e.evaluate record c := by
  have admits (position : Position) : e.Admits position := by simp [Admits, he]
  show _ = (e.enter record [] c).outcome
  induction c using Condition.induction generalizing position with
  | node c ihs ih =>
    rw [enter_of_admits (admits position), enter_of_admits (admits [])]
    cases hr : e.role record c with
    | fault error => rfl
    | leaf verdict => rfl
    | join decisive cs =>
      have hcs := ihs cs (role_eq_join_iff.mp hr).2
      show (e.enterAll record position decisive 0 cs).outcome =
        (e.enterAll record [] decisive 0 cs).outcome
      rw [outcome_enterAll position decisive 0 cs fun d hd position => hcs d hd position,
        outcome_enterAll [] decisive 0 cs fun d hd position => hcs d hd position]
    | negation d =>
      have hd := ih d (role_eq_negation_iff.mp hr).2
      show (e.enter record (.operand :: position) d).outcome.map (!·) =
        (e.enter record [.operand] d).outcome.map (!·)
      rw [hd (.operand :: position), hd [.operand]]

/-- **An outcome is made of the outcomes of the parts**, without a limit of depth. -/
theorem evaluate_eq (he : e.maxDepth = none) (record : Record) (c : Condition) :
    e.evaluate record c =
      match e.role record c with
      | .fault error => .error error
      | .leaf verdict => .ok verdict
      | .join decisive cs => joinedOutcome decisive (cs.map (e.evaluate record))
      | .negation d => (e.evaluate record d).map (!·) := by
  have admits : e.Admits [] := by simp [Admits, he]
  rw [evaluate, run, enter_of_admits admits]
  cases e.role record c with
  | fault error => rfl
  | leaf verdict => rfl
  | join decisive cs =>
    exact outcome_enterAll [] decisive 0 cs fun d _ position => outcome_enter he position d
  | negation d => exact congrArg (Except.map (!·)) (outcome_enter he [.operand] d)

variable {c : Condition}

theorem evaluate_of_join {decisive : Bool} {cs : List Condition} (he : e.maxDepth = none)
    (h : e.role record c = .join decisive cs) :
    e.evaluate record c = joinedOutcome decisive (cs.map (e.evaluate record)) := by
  rw [evaluate_eq he, h]

theorem evaluate_of_negation {d : Condition} (he : e.maxDepth = none)
    (h : e.role record c = .negation d) :
    e.evaluate record c = (e.evaluate record d).map (!·) := by
  rw [evaluate_eq he, h]

end Evaluator

end Conditions
