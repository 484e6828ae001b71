import Conditions.Proofs.Evaluation.DepthLimit
import Conditions.Proofs.Evaluation.Segments

/-!
# The trace of a run

The nodes that a run visits say all about it: which nodes come, in which order and why, and where
its outcome is from. `Explained` puts this together.
-/

namespace Conditions

open scoped List

namespace Evaluator

/-- The node that the walk enters after some visits, if depth is no matter. -/
def EntersNext (e : Evaluator) (record : Record) (c : Condition) (visits : List Visit)
    (v : Visit) : Prop :=
  ∃ after, ((e.withMaxDepth none).run record c).visits = visits ++ v :: after

/-- A node lacks the part that its operator needs. -/
def Lacks (c : Condition) (kind : OperatorKind) (part : ChildPart) : Prop :=
  (kind = .and ∨ kind = .or) ∧ part = .conditions ∧ c.conditions = none ∨
    kind = .not ∧ part = .condition ∧ c.condition = none

/-- The visits of a run explain how it goes and how it ends. -/
structure Explained (e : Evaluator) (record : Record) (c : Condition) (r : Run) : Prop where
  /-- The nodes are visited in pre-order. -/
  preorder : r.visits <+ c.places []
  /-- No node is visited twice. -/
  once : (r.visits.map (·.position)).Nodup
  /-- Every node but the root is opened by a node visited before. -/
  opened : ∀ before v after, r.visits = before ++ v :: after →
    v.position = [] ∨ ∃ u ∈ before, e.Opens u v
  /-- The run of a visited node is a part of the run. -/
  nested : ∀ v ∈ r.visits, (e.enter record v.position v.node).visits <:+: r.visits
  /-- The conditions visited in a list are the first ones of it, and all but the last have the
  verdict that does not settle the list. -/
  items : ∀ u ∈ r.visits, ∀ decisive cs, e.resolver u.node.op = .ok (.joining decisive) →
    u.node.conditions = some cs →
    r.visits.filter (·.position.isItemOf u.position) <+: Condition.items u.position 0 cs ∧
      ∀ v ∈ (r.visits.filter (·.position.isItemOf u.position)).dropLast,
        (e.enter record v.position v.node).outcome = .ok !decisive
  /-- All tokens but the last have an operator. -/
  resolved : ∀ v ∈ r.visits.dropLast, ∃ kind, e.resolver v.node.op = .ok kind
  /-- The outcome is the fault of a token if and only if it is that of the last token. -/
  resolve_iff : ∀ error, r.outcome = .error (.resolve error) ↔
    ∃ v, r.visits.getLast? = some v ∧ e.resolver v.node.op = .error error
  /-- The outcome is that a part is missing if and only if the last node lacks it. -/
  missing_iff : ∀ kind part, r.outcome = .error (.missingPart kind part) ↔
    ∃ v, r.visits.getLast? = some v ∧ e.resolver v.node.op = .ok kind ∧ Lacks v.node kind part
  /-- A node that lacks a part is reported by the name of its operator, not by its token. -/
  canonical : ∀ kind part, r.outcome = .error (.missingPart kind part) →
    OperatorKind.ofName? kind.name = some kind ∧
      (EvaluationError.missingPart kind part).message =
        "Malformed '" ++ kind.name ++ "' node: missing '" ++ part.name ++ "'"
  /-- The outcome is too deep if and only if the node entered next lies right below the limit. -/
  tooDeep_iff : ∀ limit, r.outcome = .error (.tooDeep limit) ↔
    e.maxDepth = some limit ∧ ∃ v, e.EntersNext record c r.visits v ∧ v.depth = limit + 1
  /-- Otherwise there is a verdict. -/
  ok_iff : (∃ verdict, r.outcome = .ok verdict) ↔
    (∀ v, r.visits.getLast? = some v → (∃ kind, e.resolver v.node.op = .ok kind) ∧
      ∀ kind part, e.resolver v.node.op = .ok kind → ¬ Lacks v.node kind part) ∧
    ∀ limit v, e.maxDepth = some limit → e.EntersNext record c r.visits v → v.depth ≠ limit + 1

variable {e : Evaluator} {record : Record} {c : Condition}

theorem fault?_eq_resolve_iff {error : ResolveError} :
    e.fault? c = some (.resolve error) ↔ e.resolver c.op = .error error := by
  unfold fault?
  cases e.resolver c.op with
  | error error => simp
  | ok kind => cases kind <;> cases c.conditions <;> cases c.condition <;> simp

theorem fault?_eq_missingPart_iff {kind : OperatorKind} {part : ChildPart} :
    e.fault? c = some (.missingPart kind part) ↔
      e.resolver c.op = .ok kind ∧ Lacks c kind part := by
  unfold fault? Lacks
  cases e.resolver c.op with
  | error error => simp
  | ok kind' =>
    by_cases hk : kind' = kind
    · subst hk
      cases kind' <;> cases part <;> cases c.conditions <;> cases c.condition <;> simp
    · have hne (part' : ChildPart) (h : EvaluationError.missingPart kind' part' =
          .missingPart kind part) : False := hk (EvaluationError.missingPart.inj h).1
      cases kind' <;> cases c.conditions <;> cases c.condition <;> simp_all

/-- A run fails by the fault of its last node, or not by a fault. -/
theorem outcome_eq_fault_iff {error : EvaluationError} (h : ∀ limit, error ≠ .tooDeep limit) :
    (e.run record c).outcome = .error error ↔
      ∃ v, (e.run record c).visits.getLast? = some v ∧ e.fault? v.node = some error := by
  cases e.accounted_enter record [] c with
  | sound sound outcome =>
    constructor
    · intro ho
      obtain ⟨limit, -, rfl⟩ := outcome error ho
      exact absurd rfl (h limit)
    · rintro ⟨v, hv, hfault⟩
      rw [sound v (List.mem_of_getLast? hv)] at hfault
      cases hfault
  | @fault before w error' visits sound fault outcome =>
    have hlast : (e.run record c).visits.getLast? = some w := by
      rw [run, visits, List.getLast?_concat]
    constructor
    · intro ho
      cases outcome.symm.trans ho
      exact ⟨w, hlast, fault⟩
    · rintro ⟨v, hv, hfault⟩
      cases hlast.symm.trans hv
      cases fault.symm.trans hfault
      exact outcome

/-- A run is too deep if and only if the node entered next lies one level below the limit. -/
theorem outcome_eq_tooDeep_iff {limit : Nat} :
    (e.run record c).outcome = .error (.tooDeep limit) ↔
      e.maxDepth = some limit ∧ ∃ v, e.EntersNext record c (e.run record c).visits v ∧
        v.depth = limit + 1 := by
  constructor
  · intro ho
    have hm := maxDepth_of_tooDeep ho
    refine ⟨hm, ?_⟩
    rcases Run.shallow_or_deep limit ((e.withMaxDepth none).run record c) with hs | ⟨w, hw, hdeep⟩
    · rw [run_eq_cutAt hm, Run.cutAt_of_shallow hs] at ho
      cases maxDepth_of_tooDeep ho
    · obtain ⟨before, v, after, hvs, hb, hv, hend⟩ := Run.exists_first_deep hw hdeep
      rw [run_eq_cutAt hm, hend]
      exact ⟨v, ⟨after, hvs⟩, depth_eq_of_first_deep hvs hb hv⟩
  · rintro ⟨hm, v, ⟨after, hvs⟩, hv⟩
    have hmem : v ∈ ((e.withMaxDepth none).run record c).visits :=
      hvs ▸ List.mem_append_right _ List.mem_cons_self
    rw [run_eq_cutAt hm, Run.cutAt_of_deep hmem (hv ▸ Nat.lt_succ_self limit)]

/-- Every run but one with a verdict has a fault at its end or goes too deep. -/
theorem exists_ok_iff :
    (∃ verdict, (e.run record c).outcome = .ok verdict) ↔
      (∀ v, (e.run record c).visits.getLast? = some v → e.fault? v.node = none) ∧
        ∀ limit, (e.run record c).outcome ≠ .error (.tooDeep limit) := by
  constructor
  · rintro ⟨verdict, ho⟩
    have hsound := (e.accounted_enter record [] c).sound_of_ok ho
    refine ⟨fun v hv => hsound v (List.mem_of_getLast? hv), fun limit ht => ?_⟩
    cases ho.symm.trans ht
  · rintro ⟨hlast, hdeep⟩
    cases ho : (e.run record c).outcome with
    | ok verdict => exact ⟨verdict, rfl⟩
    | error error =>
      have hne (limit : Nat) : error ≠ .tooDeep limit := fun h => hdeep limit (h ▸ ho)
      obtain ⟨v, hv, hfault⟩ := (outcome_eq_fault_iff hne).mp ho
      rw [hlast v hv] at hfault
      cases hfault

/-- A node is at no fault if and only if its token has an operator whose part it does not lack. -/
theorem fault?_eq_none_iff :
    e.fault? c = none ↔ (∃ kind, e.resolver c.op = .ok kind) ∧
      ∀ kind part, e.resolver c.op = .ok kind → ¬ Lacks c kind part := by
  constructor
  · intro h
    refine ⟨?_, fun kind part hop hlacks => ?_⟩
    · cases hop : e.resolver c.op with
      | error error => cases h.symm.trans (fault?_eq_resolve_iff.mpr hop)
      | ok kind => exact ⟨kind, rfl⟩
    · cases h.symm.trans (fault?_eq_missingPart_iff.mpr ⟨hop, hlacks⟩)
  · rintro ⟨⟨kind, hop⟩, hlacks⟩
    cases hf : e.fault? c with
    | none => rfl
    | some error =>
      cases error with
      | resolve error => cases hop.symm.trans (fault?_eq_resolve_iff.mp hf)
      | missingPart kind part =>
        obtain ⟨hop', hl⟩ := fault?_eq_missingPart_iff.mp hf
        exact absurd hl (hlacks kind part hop')
      | tooDeep limit => exact absurd hf (fault?_ne_tooDeep limit)

/-- **The trace of a run explains it**, whatever the resolver, the limit of depth, the record and
the condition are. -/
theorem run_explained (e : Evaluator) (record : Record) (c : Condition) :
    e.Explained record c (e.run record c) where
  preorder := e.visits_sublist_places record [] c
  once := e.nodup_visits record [] c
  opened before v after h := by
    rcases opened_before [] c before v after h with rfl | hu
    · exact .inl rfl
    · exact .inr hu
  nested v hv := by
    obtain ⟨before, after, hseg, -⟩ := segment_of_mem_visits [] c v hv
    exact ⟨before, after, hseg.symm⟩
  items u hu decisive cs hop hcs := items_visits hu (role_eq_join_iff.mpr ⟨hop, hcs⟩)
  resolved v hv := by
    cases e.accounted_enter record [] c with
    | sound sound _ => exact (fault?_eq_none_iff.mp (sound v ((List.dropLast_subset _) hv))).1
    | fault visits sound _ _ =>
      rw [run, visits, List.dropLast_concat] at hv
      exact (fault?_eq_none_iff.mp (sound v hv)).1
  resolve_iff error := by
    rw [outcome_eq_fault_iff (by simp)]
    simp only [fault?_eq_resolve_iff]
  missing_iff kind part := by
    rw [outcome_eq_fault_iff (by simp)]
    simp only [fault?_eq_missingPart_iff]
  canonical kind part ho := by
    obtain ⟨v, -, hfault⟩ := (outcome_eq_fault_iff (by simp)).mp ho
    obtain ⟨-, ⟨rfl | rfl, -⟩ | ⟨rfl, -⟩⟩ := fault?_eq_missingPart_iff.mp hfault
    · exact ⟨rfl, rfl⟩
    · exact ⟨rfl, rfl⟩
    · exact ⟨rfl, rfl⟩
  tooDeep_iff limit := outcome_eq_tooDeep_iff
  ok_iff := by
    rw [exists_ok_iff]
    simp only [fault?_eq_none_iff, ne_eq, outcome_eq_tooDeep_iff, not_and, not_exists]
    exact and_congr_right fun _ =>
      ⟨fun h limit v hm hv => h limit hm v hv, fun h limit hm v hv => h limit v hm hv⟩

end Evaluator

end Conditions
