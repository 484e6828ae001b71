import Conditions.Proofs.Evaluation.Polarity
import Conditions.Proofs.Evaluation.Reads

/-!
# Strict and loose order

The strict mode gives an order to two numbers and to two texts alone (`oneKind_of_below?_strict`),
and there the loose mode has the same (`OneKind.below?_eq`). So a comparison that holds strictly
holds loosely as well (`holds_loose_of_strict`), and the modes do not differ on equalities, nor on
operands of one kind.

`strict_refines_loose` lifts both facts to conditions. Runs that compare by order no operands but of
one kind go in step. Other comparisons may hold in the loose mode alone, and that carries over to
the whole as long as no negation turns it round.
-/

namespace Conditions

/-- Compares by order, not by equality. -/
def Comparison.IsRelation : Comparison → Prop
  | .equals | .notEquals => False
  | .lessThan | .greaterThan | .lessThanOrEqual | .greaterThanOrEqual => True

namespace Operand

/-- Both operands are numbers, or both are texts. -/
def OneKind : Operand → Operand → Prop
  | .number _, .number _ | .text _, .text _ => True
  | _, _ => False

theorem OneKind.symm {a b : Operand} (h : OneKind a b) : OneKind b a := by
  cases a <;> cases b <;> exact h

/-- On operands of one kind the two modes are one order. -/
theorem OneKind.below?_eq {a b : Operand} (h : OneKind a b) (mode mode' : OrderingMode) :
    a.below? mode b = a.below? mode' b := by
  cases a with
  | number x =>
    cases b with
    | number y => cases mode <;> cases mode' <;> rfl
    | _ => exact h.elim
  | text s =>
    cases b with
    | text t => rfl
    | _ => exact h.elim
  | _ => exact h.elim

/-- The strict mode gives an order to operands of one kind alone. -/
theorem oneKind_of_below?_strict {a b : Operand} {v : Bool} (h : a.below? .strict b = some v) :
    OneKind a b := by
  cases a with
  | number x =>
    cases b with
    | number y => trivial
    | _ => cases h
  | text s =>
    cases b with
    | text t => trivial
    | _ => cases h
  | _ => cases h

end Operand

namespace Comparison

variable {comparison : Comparison} {a b : Operand}

/-- The mode is no matter to an equality, nor to operands of one kind. -/
theorem holds_eq_of_oneKind (h : comparison.IsRelation → Operand.OneKind a b)
    (mode mode' : OrderingMode) : comparison.holds mode a b = comparison.holds mode' a b := by
  cases comparison with
  | equals => rfl
  | notEquals => rfl
  | lessThan => exact congrArg (· == some true) ((h trivial).below?_eq mode mode')
  | greaterThan => exact congrArg (· == some true) ((h trivial).symm.below?_eq mode mode')
  | lessThanOrEqual => exact congrArg (· == some false) ((h trivial).symm.below?_eq mode mode')
  | greaterThanOrEqual => exact congrArg (· == some false) ((h trivial).below?_eq mode mode')

/-- **What holds strictly holds loosely**. -/
theorem holds_loose_of_strict (h : comparison.holds .strict a b = true) :
    comparison.holds .loose a b = true := by
  have hkind : comparison.IsRelation → Operand.OneKind a b := by
    intro hrelation
    cases comparison with
    | equals => exact hrelation.elim
    | notEquals => exact hrelation.elim
    | lessThan => exact Operand.oneKind_of_below?_strict (eq_of_beq h)
    | greaterThan => exact (Operand.oneKind_of_below?_strict (eq_of_beq h)).symm
    | lessThanOrEqual => exact (Operand.oneKind_of_below?_strict (eq_of_beq h)).symm
    | greaterThanOrEqual => exact Operand.oneKind_of_below?_strict (eq_of_beq h)
  rw [holds_eq_of_oneKind hkind .loose .strict, h]

end Comparison

namespace Evaluator

variable {e : Evaluator} {record : Record} {c : Condition}

/-- The evaluator with another order of operands. -/
def withOrdering (e : Evaluator) (ordering : OrderingMode) : Evaluator :=
  { e with ordering := ordering }

/-! ### Runs whose comparisons are the same in both modes -/

/-- A node has the same role in both modes, unless it compares operands of two kinds by order. -/
theorem role_withOrdering (h : ∀ comparison, e.resolver c.op = .ok (.compare comparison) →
      comparison.IsRelation →
      Operand.OneKind (.ofField (c.property.bind record.get?)) (.ofLiteral c.value))
    (mode mode' : OrderingMode) :
    (e.withOrdering mode').role record c = (e.withOrdering mode).role record c := by
  unfold role
  simp only [withOrdering]
  cases hk : e.resolver c.op with
  | error error => rfl
  | ok kind =>
    cases kind with
    | compare comparison =>
      exact congrArg Role.leaf (Comparison.holds_eq_of_oneKind (h comparison hk) mode' mode)
    | _ => rfl

/-- A run in one mode is that in the other, if the operands that it compares by order are of one
kind. -/
theorem run_withOrdering {mode : OrderingMode}
    (h : ∀ v ∈ ((e.withOrdering mode).run record c).visits, ∀ comparison,
      e.resolver v.node.op = .ok (.compare comparison) → comparison.IsRelation →
      Operand.OneKind (.ofField (v.node.property.bind record.get?)) (.ofLiteral v.node.value))
    (mode' : OrderingMode) :
    (e.withOrdering mode').run record c = (e.withOrdering mode).run record c := by
  refine enter_eq_of_role_eq ?_ [] c fun v hv => role_withOrdering (h v hv) mode mode'
  rfl

/-! ### Verdicts that only the loose mode gives -/

theorem reaches_withOrdering {ordering : OrderingMode} {u v : Visit}
    (h : (e.withOrdering ordering).Reaches u v) : e.Reaches u v := by
  have hopens : (e.withOrdering ordering).Opens ≤ e.Opens := by
    intro u v huv
    cases huv with
    | item kind conditions item => exact .item kind conditions item
    | operand kind condition => exact .operand kind condition
  exact Relation.ReflTransGen.mono hopens u v h

/-- A verdict of a node by itself is at most its verdict in the loose mode. -/
theorem role_loose_of_strict {v : Bool} (h : (e.withOrdering .strict).role record c = .leaf v) :
    ∃ w, (e.withOrdering .loose).role record c = .leaf w ∧ Below false v w := by
  unfold role at h ⊢
  simp only [withOrdering] at h ⊢
  cases hk : e.resolver c.op with
  | error error => simp [hk] at h
  | ok kind =>
    rw [hk] at h
    cases kind with
    | compare comparison =>
      cases h
      exact ⟨_, rfl, fun hv => Comparison.holds_loose_of_strict hv⟩
    | unrecognized token =>
      cases h
      exact ⟨false, rfl, .refl false false⟩
    | and => cases hc : c.conditions <;> simp [hc] at h
    | or => cases hc : c.conditions <;> simp [hc] at h
    | not => cases hc : c.condition <;> simp [hc] at h

/-- The meanings of the conditions of a list are related one by one. -/
theorem forall₂_meanings {e' : Evaluator} {R : Bool → Bool → Prop} {β : Position → Bool}
    {position : Position} {index : Nat} {cs : List Condition}
    (h : ∀ i d, cs[i]? = some d → R (e.meaning record β (.item (index + i) :: position) d)
      (e'.meaning record β (.item (index + i) :: position) d)) :
    List.Forall₂ R (e.meanings record β position index cs)
      (e'.meanings record β position index cs) := by
  induction cs generalizing index with
  | nil => exact .nil
  | cons c cs ih =>
    refine .cons (h 0 c rfl) (ih fun i d hd => ?_)
    rw [Nat.add_assoc, Nat.add_comm 1]
    exact h (i + 1) d hd

/-- **Without negations, the strict meaning is at most the loose one**. -/
theorem below_meaning_withOrdering (record : Record) (β : Position → Bool) (position : Position)
    (c : Condition) (h : ∀ u, e.Reaches ⟨position, c⟩ u → e.resolver u.node.op ≠ .ok .not) :
    Below false ((e.withOrdering .strict).meaning record β position c)
      ((e.withOrdering .loose).meaning record β position c) := by
  induction c using Condition.induction generalizing position with
  | node c ihs ih =>
    cases hr : (e.withOrdering .strict).role record c with
    | fault error =>
      have hfault : (e.withOrdering .strict).fault? c = some error := fault?_eq_some_iff.mpr hr
      have hr' : (e.withOrdering .loose).role record c = .fault error :=
        fault?_eq_some_iff.mp hfault
      rw [meaning_eq, hr, meaning_eq, hr']
      exact .refl false _
    | leaf v =>
      obtain ⟨w, hr', hle⟩ := role_loose_of_strict hr
      rwa [meaning_eq, hr, meaning_eq, hr']
    | join decisive cs =>
      obtain ⟨hop, hcs⟩ := role_eq_join_iff.mp hr
      have hr' : (e.withOrdering .loose).role record c = .join decisive cs :=
        role_eq_join_iff.mpr ⟨hop, hcs⟩
      have hown : e.role record c = .join decisive cs := role_eq_join_iff.mpr ⟨hop, hcs⟩
      rw [meaning_eq, hr, meaning_eq, hr']
      refine below_joined decisive (forall₂_meanings fun i d hd => ?_)
      rw [Nat.zero_add]
      exact ihs cs hcs d (List.mem_of_getElem? hd) _ fun u hu =>
        h u (.head (opens_of_role_join hown hd) hu)
    | negation d => exact absurd (role_eq_negation_iff.mp hr).1 (h _ .refl)

/-- **The strict order refines the loose one**. If all operands that a run compares by order, in the
strict or in the loose mode, are two numbers or two texts, the runs in both modes are the same. And
if no node that counts negates or is at fault, within the limit of depth, what holds in the strict
mode holds in the loose mode. -/
theorem strict_refines_loose (e : Evaluator) (record : Record) (c : Condition) :
    (∀ mode, (∀ v ∈ ((e.withOrdering mode).run record c).visits, ∀ comparison,
        e.resolver v.node.op = .ok (.compare comparison) → comparison.IsRelation →
        Operand.OneKind (.ofField (v.node.property.bind record.get?)) (.ofLiteral v.node.value)) →
      (e.withOrdering .strict).run record c = (e.withOrdering .loose).run record c) ∧
    ((∀ u, e.Reaches ⟨[], c⟩ u →
        e.resolver u.node.op ≠ .ok .not ∧ e.fault? u.node = none) →
      (∀ limit, e.maxDepth = some limit → c.depth ≤ limit) →
      (e.withOrdering .strict).evaluate record c = .ok true →
      (e.withOrdering .loose).evaluate record c = .ok true) := by
  refine ⟨fun mode h => (run_withOrdering h .strict).trans (run_withOrdering h .loose).symm,
    fun hreached hdepth hstrict => ?_⟩
  have hsound (mode : OrderingMode) : (e.withOrdering mode).Faultless c := fun u hu =>
    (hreached u (reaches_withOrdering hu)).2
  have hle := below_meaning_withOrdering record (fun _ => false) [] c fun u hu =>
    (hreached u hu).1
  rw [evaluate_of_faultless (hsound .strict) hdepth fun _ => false, Except.ok.injEq] at hstrict
  rw [evaluate_of_faultless (hsound .loose) hdepth fun _ => false, Except.ok.injEq]
  exact hle hstrict

/-- Has an alternative that no run in the loose mode comes to. -/
def flagged : Condition :=
  .any [.compare (.compare .greaterThan) "flag" (.number .zero), .all []]

theorem strict_refines_loose_flagged :
    (standard.withOrdering .strict).run (.ofWrites [("flag", .bool true)]) flagged ≠
        (standard.withOrdering .loose).run (.ofWrites [("flag", .bool true)]) flagged ∧
      (standard.withOrdering .loose).evaluate (.ofWrites [("flag", .bool true)]) flagged =
        .ok true := by
  have hplaces : ∀ v ∈ flagged.places [],
      standard.resolver v.node.op ≠ .ok .not ∧ standard.fault? v.node = none := by decide
  have hstrict : (standard.withOrdering .strict).evaluate (.ofWrites [("flag", .bool true)])
      flagged = .ok true := rfl
  obtain ⟨-, hholds⟩ := strict_refines_loose standard (.ofWrites [("flag", .bool true)]) flagged
  refine ⟨fun h => ?_, hholds (fun u hu => hplaces u (mem_places_of_reaches hu)) ?_ hstrict⟩
  · exact absurd (congrArg (·.visits.length) h) (by decide)
  · rintro limit ⟨⟩

end Evaluator

end Conditions
