import Conditions.Proofs.Evaluation.DepthLimit

/-!
# The Boolean meaning of a condition

A condition has a plain meaning: the verdicts of all the conditions in a list, joined by `and` or
`or`. A node at fault has none, so the meaning takes a verdict for each of them, by position. An
evaluation looks at no more than it needs, and still every verdict that it gives is the meaning,
whatever verdicts the nodes at fault are taken to have; and it gives one whenever no node that
counts is at fault or too deep.
-/

namespace Conditions

namespace Evaluator

mutual

/-- The meaning of a node at a position, `β` being the verdicts of the nodes at fault. -/
def meaning (e : Evaluator) (record : Record) (β : Position → Bool) (position : Position) :
    Condition → Bool
  | ⟨op, property, value, conditions, condition⟩ =>
    match e.resolver op with
    | .error _ => β position
    | .ok (.compare comparison) => e.comparisonHolds record comparison property value
    | .ok (.unrecognized _) => false
    | .ok .and =>
      match conditions with
      | none => β position
      | some cs => (meanings e record β position 0 cs).all id
    | .ok .or =>
      match conditions with
      | none => β position
      | some cs => (meanings e record β position 0 cs).any id
    | .ok .not =>
      match condition with
      | none => β position
      | some c => !meaning e record β (.operand :: position) c

/-- The meanings of the conditions of a list, from an index on. -/
def meanings (e : Evaluator) (record : Record) (β : Position → Bool) (position : Position)
    (index : Nat) : List Condition → List Bool
  | [] => []
  | c :: cs =>
    meaning e record β (.item index :: position) c :: meanings e record β position (index + 1) cs

end

/-- The verdict that joined verdicts have: the decisive one if it is among them. -/
def joined (decisive : Bool) (verdicts : List Bool) : Bool :=
  if decisive ∈ verdicts then decisive else !decisive

theorem joined_cons_self (decisive : Bool) (vs : List Bool) :
    joined decisive (decisive :: vs) = decisive := if_pos List.mem_cons_self

theorem joined_cons_not (decisive : Bool) (vs : List Bool) :
    joined decisive ((!decisive) :: vs) = joined decisive vs := by
  cases decisive <;> simp [joined]

theorem joined_false (vs : List Bool) : joined false vs = vs.all id := by
  induction vs with
  | nil => rfl
  | cons v vs ih =>
    cases v with
    | false => exact joined_cons_self false vs
    | true => simpa [← ih] using joined_cons_not false vs

theorem joined_true (vs : List Bool) : joined true vs = vs.any id := by
  induction vs with
  | nil => rfl
  | cons v vs ih =>
    cases v with
    | false => simpa [← ih] using joined_cons_not true vs
    | true => exact joined_cons_self true vs

/-- The meaning of a node, by its role. -/
theorem meaning_eq (e : Evaluator) (record : Record) (β : Position → Bool) (position : Position)
    (c : Condition) :
    e.meaning record β position c =
      match e.role record c with
      | .fault _ => β position
      | .leaf verdict => verdict
      | .join decisive cs => joined decisive (e.meanings record β position 0 cs)
      | .negation d => !e.meaning record β (.operand :: position) d := by
  obtain ⟨op, property, value, conditions, condition⟩ := c
  rw [meaning.eq_def]
  simp only [role]
  cases e.resolver op with
  | error error => rfl
  | ok kind =>
    cases kind with
    | compare comparison => rfl
    | unrecognized token => rfl
    | and =>
      cases conditions with
      | none => rfl
      | some cs => exact (joined_false _).symm
    | or =>
      cases conditions with
      | none => rfl
      | some cs => exact (joined_true _).symm
    | not => cases condition <;> rfl

variable {e : Evaluator} {record : Record}

/-- **A verdict is the meaning**, whatever verdicts the nodes at fault are taken to have. -/
theorem meaning_of_outcome (β : Position → Bool) (position : Position) (c : Condition) :
    ∀ v, (e.enter record position c).outcome = .ok v → e.meaning record β position c = v := by
  apply walk_induction e record
    (P := fun position c r => ∀ v, r.outcome = .ok v → e.meaning record β position c = v)
    (Q := fun position decisive index cs r => ∀ v, r.outcome = .ok v →
      joined decisive (e.meanings record β position index cs) = v)
  case refused => rintro position c limit - - v ⟨⟩
  case fault => rintro position c error - - v ⟨⟩
  case leaf =>
    rintro position c verdict - hr v ⟨⟩
    rw [meaning_eq, hr]
  case join =>
    intro position c decisive cs _ hr ih v ho
    rw [meaning_eq, hr]
    exact ih v ho
  case negation =>
    intro position c d _ hr ih v ho
    rw [meaning_eq, hr]
    cases hd : (e.enter record (.operand :: position) d).outcome with
    | error error =>
      rw [Run.outcome_after, Run.outcome_negate, hd] at ho
      cases ho
    | ok verdict =>
      rw [Run.outcome_after, Run.outcome_negate, hd] at ho
      show (!e.meaning record β (.operand :: position) d) = v
      rw [ih verdict hd]
      exact Except.ok.inj ho
  case nil =>
    rintro position decisive index v ⟨⟩
    exact if_neg List.not_mem_nil
  case stop =>
    intro position decisive index c cs hne ih v ho
    have hv : v = decisive := by
      rw [ho] at hne
      cases v <;> cases decisive <;> simp_all
    rw [meanings, ih v ho, hv]
    exact joined_cons_self decisive _
  case next =>
    intro position decisive index c cs hnext ih ihs v ho
    rw [meanings, ih _ hnext, joined_cons_not]
    exact ihs v ho

/-- **Evaluation is sound and complete for the meaning**. A verdict is the meaning under every
choice of verdicts for the nodes at fault; and there is a verdict if no node that is reached
through the parts that operators need is at fault, and the condition is within the limit of
depth. -/
theorem evaluate_meaning (e : Evaluator) (record : Record) (c : Condition) :
    (∀ v, e.evaluate record c = .ok v → ∀ β, e.meaning record β [] c = v) ∧
    ((∀ u, e.Reaches ⟨[], c⟩ u → e.fault? u.node = none) →
      (∀ limit, e.maxDepth = some limit → c.depth ≤ limit) →
      ∀ β, e.evaluate record c = .ok (e.meaning record β [] c)) := by
  refine ⟨fun v hv β => meaning_of_outcome β [] c v hv, fun hfault hdepth β => ?_⟩
  cases ho : e.evaluate record c with
  | ok v => rw [meaning_of_outcome β [] c v ho]
  | error error =>
    cases e.accounted_enter record [] c with
    | sound _ outcome =>
      obtain ⟨limit, -, rfl⟩ := outcome error ho
      exact absurd ho (outcome_ne_tooDeep hdepth limit)
    | @fault before v _ visits _ fault _ =>
      have hv : v ∈ (e.enter record [] c).visits := visits ▸ List.mem_append_right before
        List.mem_cons_self
      rw [hfault v (reaches_of_mem_visits hv)] at fault
      cases fault

end Evaluator

end Conditions
