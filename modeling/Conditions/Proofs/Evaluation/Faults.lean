import Conditions.Proofs.Evaluation.Visits

/-!
# Faults

A node is at fault if its token has no operator, or if it lacks the part that its operator needs.
A run ends at the first node at fault that it visits, and with the fault of that node
(`accounted_enter`): it visits no node at fault and fails at most for the depth of a node, or the
last node visited, and no other, is at fault and gives the outcome.
-/

namespace Conditions

/-- The fault of a node, if it has one. -/
def Evaluator.fault? (e : Evaluator) (c : Condition) : Option EvaluationError :=
  match e.resolver c.op with
  | .error error => some (.resolve error)
  | .ok .and => if c.conditions = none then some (.missingPart .and .conditions) else none
  | .ok .or => if c.conditions = none then some (.missingPart .or .conditions) else none
  | .ok .not => if c.condition = none then some (.missingPart .not .condition) else none
  | .ok (.compare _) | .ok (.unrecognized _) => none

/-- The visits of a run account for its outcome. -/
inductive Run.Accounted (e : Evaluator) (r : Run) : Prop where
  /-- No node is at fault, and at most one is too deep. -/
  | sound (sound : ∀ v ∈ r.visits, e.fault? v.node = none)
      (outcome : ∀ error, r.outcome = .error error →
        ∃ limit, e.maxDepth = some limit ∧ error = .tooDeep limit)
  /-- The last node, and no other, is at fault. -/
  | fault {before : List Visit} {v : Visit} {error : EvaluationError}
      (visits : r.visits = before ++ [v]) (sound : ∀ u ∈ before, e.fault? u.node = none)
      (fault : e.fault? v.node = some error) (outcome : r.outcome = .error error)

namespace Run

variable {e : Evaluator} {r : Run}

theorem Accounted.after {vs : List Visit} (h : ∀ v ∈ vs, e.fault? v.node = none)
    (hr : r.Accounted e) : (after vs r).Accounted e := by
  cases hr with
  | sound sound outcome =>
    refine .sound (fun v hv => ?_) outcome
    rcases List.mem_append.mp hv with hv | hv
    · exact h v hv
    · exact sound v hv
  | @fault before v error visits sound fault outcome =>
    have hvisits : (Run.after vs r).visits = (vs ++ before) ++ [v] := by
      rw [visits_after, visits, List.append_assoc]
    refine .fault hvisits (fun u hu => ?_) fault outcome
    rcases List.mem_append.mp hu with hu | hu
    · exact h u hu
    · exact sound u hu

theorem Accounted.negate (hr : r.Accounted e) : r.negate.Accounted e := by
  cases hr with
  | sound sound outcome =>
    refine .sound sound fun error ho => ?_
    cases h : r.outcome with
    | error error' =>
      rw [outcome_negate, h] at ho
      exact outcome error (h.trans (congrArg Except.error (Except.error.inj ho)))
    | ok verdict =>
      rw [outcome_negate, h] at ho
      cases ho
  | fault visits sound fault outcome =>
    exact .fault visits sound fault (by rw [outcome_negate, outcome]; rfl)

/-- A run with a verdict visits no node at fault. -/
theorem Accounted.sound_of_ok {verdict : Bool} (hr : r.Accounted e) (ho : r.outcome = .ok verdict) :
    ∀ v ∈ r.visits, e.fault? v.node = none := by
  cases hr with
  | sound sound _ => exact sound
  | fault _ _ _ outcome => cases ho.symm.trans outcome

end Run

namespace Evaluator

variable {e : Evaluator} {record : Record} {position : Position} {c : Condition}

theorem fault?_eq_some_iff {error : EvaluationError} :
    e.fault? c = some error ↔ e.role record c = .fault error := by
  unfold fault? role
  cases e.resolver c.op with
  | error error => simp
  | ok kind => cases kind <;> cases c.conditions <;> cases c.condition <;> simp

/-- Its depth is no fault of a node. -/
theorem fault?_ne_tooDeep (limit : Nat) : e.fault? c ≠ some (.tooDeep limit) := by
  unfold fault?
  cases e.resolver c.op with
  | error error => simp
  | ok kind => cases kind <;> cases c.conditions <;> cases c.condition <;> simp

theorem fault?_eq_none {role : Role} (hr : e.role record c = role)
    (h : ∀ error, role ≠ .fault error) : e.fault? c = none := by
  rw [Option.eq_none_iff_forall_ne_some]
  intro error he
  exact h error (hr.symm.trans (fault?_eq_some_iff.mp he))

/-- **A run ends at the first node at fault**, and with its fault. -/
theorem accounted_enter (e : Evaluator) (record : Record) (position : Position) (c : Condition) :
    (e.enter record position c).Accounted e := by
  apply walk_induction e record (P := fun _ _ r => r.Accounted e)
    (Q := fun _ _ _ _ r => r.Accounted e)
  case refused =>
    intro position c limit hl _
    refine .sound (by simp) ?_
    rintro _ ⟨⟩
    exact ⟨limit, hl, rfl⟩
  case fault =>
    intro position c error _ hr
    exact .fault (List.nil_append _).symm (by simp) (fault?_eq_some_iff.mpr hr) rfl
  case leaf =>
    intro position c verdict _ hr
    refine .sound (fun v hv => ?_) (by simp)
    rw [List.mem_singleton.mp hv]
    exact fault?_eq_none hr (by simp)
  case join =>
    intro position c decisive cs _ hr ih
    exact ih.after (by simpa using fault?_eq_none hr (by simp))
  case negation =>
    intro position c d _ hr ih
    exact ih.negate.after (by simpa using fault?_eq_none hr (by simp))
  case nil => exact fun position decisive index => .sound (by simp) (by simp)
  case stop => exact fun position decisive index c cs _ ih => ih
  case next => exact fun position decisive index c cs ho ih ihs => ihs.after (ih.sound_of_ok ho)

/-- Only a limit makes a run too deep. -/
theorem maxDepth_of_tooDeep {limit : Nat}
    (h : (e.enter record position c).outcome = .error (.tooDeep limit)) :
    e.maxDepth = some limit := by
  cases e.accounted_enter record position c with
  | sound _ outcome =>
    obtain ⟨_, hl, ⟨⟩⟩ := outcome _ h
    exact hl
  | fault _ _ fault outcome =>
    cases h.symm.trans outcome
    exact absurd fault (fault?_ne_tooDeep limit)

end Evaluator

end Conditions
