import Conditions.Proofs.Evaluation.Walk
import Mathlib.Data.List.Basic
import Mathlib.Logic.Relation

/-!
# The nodes visited

A walk enters a node from another: `Opens` is one such step, and `Reaches` any number of them. Every
node visited but the first is opened by one visited before (`opened_before`), so all of them are
reached from the first (`reaches_of_mem_visits`), and none lies deeper than the conditions below it
go (`depth_le_of_mem_visits`).
-/

namespace Conditions

/-- The depth of a visited node, the root being at depth one. -/
def Visit.depth (v : Visit) : Nat := v.position.length + 1

/-- One node makes the walk enter another: `and` and `or` the conditions of their list, `not` its
condition. -/
inductive Evaluator.Opens (e : Evaluator) : Visit → Visit → Prop where
  /-- The condition at an index of the list that a node joins. -/
  | item {u : Visit} {cs : List Condition} {index : Nat} {d : Condition}
      (kind : e.resolver u.node.op = .ok .and ∨ e.resolver u.node.op = .ok .or)
      (conditions : u.node.conditions = some cs) (item : cs[index]? = some d) :
      Opens e u ⟨.item index :: u.position, d⟩
  /-- The condition that a node negates. -/
  | operand {u : Visit} {d : Condition} (kind : e.resolver u.node.op = .ok .not)
      (condition : u.node.condition = some d) : Opens e u ⟨.operand :: u.position, d⟩

/-- One node is reached from another through the parts that operators need. -/
def Evaluator.Reaches (e : Evaluator) : Visit → Visit → Prop := Relation.ReflTransGen e.Opens

namespace Evaluator

variable {e : Evaluator} {record : Record} {position : Position} {c : Condition}

theorem opens_of_role_join {decisive : Bool} {cs : List Condition} {index : Nat} {d : Condition}
    (h : e.role record c = .join decisive cs) (hd : cs[index]? = some d) :
    e.Opens ⟨position, c⟩ ⟨.item index :: position, d⟩ := by
  obtain ⟨hop, hcs⟩ := role_eq_join_iff.mp h
  refine .item ?_ hcs hd
  cases decisive with
  | false => exact .inl hop
  | true => exact .inr hop

theorem opens_of_role_negation {d : Condition} (h : e.role record c = .negation d) :
    e.Opens ⟨position, c⟩ ⟨.operand :: position, d⟩ := by
  obtain ⟨hop, hc⟩ := role_eq_negation_iff.mp h
  exact .operand hop hc

theorem Opens.depth_eq {u v : Visit} (h : e.Opens u v) : v.depth = u.depth + 1 := by
  cases h <;> rfl

/-! ### How deep a run goes -/

/-- No visited node lies deeper than the conditions below the node entered. -/
theorem depth_le_of_mem_visits (position : Position) (c : Condition) :
    ∀ v ∈ (e.enter record position c).visits, v.depth ≤ position.length + c.depth := by
  have here (position : Position) (c : Condition) :
      Visit.depth ⟨position, c⟩ ≤ position.length + c.depth := by
    obtain ⟨op, property, value, conditions, condition⟩ := c
    simp only [Visit.depth, Condition.depth]
    omega
  apply walk_induction e record
    (P := fun position c r => ∀ v ∈ r.visits, v.depth ≤ position.length + c.depth)
    (Q := fun position _ _ cs r =>
      ∀ v ∈ r.visits, v.depth ≤ position.length + 1 + Condition.listDepth cs)
  case refused => simp
  case fault =>
    intro position c error _ _ v hv
    exact List.mem_singleton.mp hv ▸ here position c
  case leaf =>
    intro position c verdict _ _ v hv
    exact List.mem_singleton.mp hv ▸ here position c
  case join =>
    intro position c decisive cs _ hr ih v hv
    have hlt := Condition.listDepth_lt_depth (role_eq_join_iff.mp hr).2
    rcases List.mem_cons.mp hv with rfl | hv
    · exact here position c
    · have := ih v hv
      omega
  case negation =>
    intro position c d _ hr ih v hv
    have hlt := Condition.depth_lt_depth (role_eq_negation_iff.mp hr).2
    rcases List.mem_cons.mp hv with rfl | hv
    · exact here position c
    · have := ih v hv
      simp only [List.length_cons] at this
      omega
  case nil => simp
  case stop =>
    intro position decisive index c cs _ ih v hv
    have := ih v hv
    simp only [List.length_cons, Condition.listDepth] at this ⊢
    omega
  case next =>
    intro position decisive index c cs _ ih ihs v hv
    simp only [Condition.listDepth]
    rcases List.mem_append.mp hv with hv | hv
    · have := ih v hv
      simp only [List.length_cons] at this
      omega
    · have := ihs v hv
      omega

/-! ### What a node is entered from -/

private theorem opened_before_cons {u : Visit} {vs : List Visit}
    (h : ∀ before v after, vs = before ++ v :: after → e.Opens u v ∨ ∃ w ∈ before, e.Opens w v) :
    ∀ before v after, u :: vs = before ++ v :: after → v = u ∨ ∃ w ∈ before, e.Opens w v := by
  intro before v after hvs
  cases before with
  | nil => exact .inl (List.cons.inj hvs).1.symm
  | cons b before =>
    obtain ⟨rfl, hvs'⟩ := List.cons.inj hvs
    rcases h before v after hvs' with hu | ⟨w, hw, hwv⟩
    · exact .inr ⟨u, List.mem_cons_self, hu⟩
    · exact .inr ⟨w, List.mem_cons_of_mem u hw, hwv⟩

/-- A visited node is the one entered, or some node visited before it opens it. -/
theorem opened_before (position : Position) (c : Condition) :
    ∀ before v after, (e.enter record position c).visits = before ++ v :: after →
      v = ⟨position, c⟩ ∨ ∃ u ∈ before, e.Opens u v := by
  apply walk_induction e record
    (P := fun position c r => ∀ before v after, r.visits = before ++ v :: after →
      v = ⟨position, c⟩ ∨ ∃ u ∈ before, e.Opens u v)
    (Q := fun position _ index cs r => ∀ before v after, r.visits = before ++ v :: after →
      (∃ i d, cs[i]? = some d ∧ v = ⟨.item (index + i) :: position, d⟩) ∨
        ∃ u ∈ before, e.Opens u v)
  case refused => simp
  case fault =>
    intro position c error _ _
    exact opened_before_cons (by simp)
  case leaf =>
    intro position c verdict _ _
    exact opened_before_cons (by simp)
  case join =>
    intro position c decisive cs _ hr ih
    refine opened_before_cons fun before v after h => ?_
    rcases ih before v after h with ⟨i, d, hd, rfl⟩ | hu
    · exact .inl (by simpa using opens_of_role_join hr hd)
    · exact .inr hu
  case negation =>
    intro position c d _ hr ih
    refine opened_before_cons fun before v after h => ?_
    rcases ih before v after h with rfl | hu
    · exact .inl (opens_of_role_negation hr)
    · exact .inr hu
  case nil => simp
  case stop =>
    intro position decisive index c cs _ ih before v after h
    rcases ih before v after h with rfl | hu
    · exact .inl ⟨0, c, rfl, rfl⟩
    · exact .inr hu
  case next =>
    intro position decisive index c cs _ ih ihs before v after h
    rcases List.append_eq_append_iff.mp h with ⟨before', rfl, h'⟩ | ⟨rest, h', hrest⟩
    · rcases ihs before' v after h' with ⟨i, d, hd, rfl⟩ | ⟨u, hu, huv⟩
      · exact .inl ⟨i + 1, d, hd, by simp only [Nat.add_assoc, Nat.add_comm 1 i]⟩
      · exact .inr ⟨u, List.mem_append_right _ hu, huv⟩
    · cases rest with
      | nil =>
        rcases ihs [] v after hrest.symm with ⟨i, d, hd, rfl⟩ | ⟨u, hu, -⟩
        · exact .inl ⟨i + 1, d, hd, by simp only [Nat.add_assoc, Nat.add_comm 1 i]⟩
        · cases hu
      | cons v' rest =>
        obtain ⟨rfl, -⟩ := List.cons.inj hrest
        rcases ih before v rest h' with rfl | hu
        · exact .inl ⟨0, c, rfl, rfl⟩
        · exact .inr hu

/-- Every node visited is reached from the one entered. -/
theorem reaches_of_mem_visits {v : Visit} (hv : v ∈ (e.enter record position c).visits) :
    e.Reaches ⟨position, c⟩ v := by
  obtain ⟨before, after, h⟩ := List.append_of_mem hv
  -- by induction on how many nodes are visited before
  induction hn : before.length using Nat.strongRecOn generalizing before v after with
  | _ n ih =>
    rcases opened_before position c before v after h with rfl | ⟨u, hu, huv⟩
    · exact .refl
    · obtain ⟨before', between, rfl⟩ := List.append_of_mem hu
      have hlt : before'.length < n := by
        rw [← hn, List.length_append, List.length_cons]
        omega
      rw [List.append_assoc, List.cons_append] at h
      exact (ih _ hlt (h ▸ List.mem_append_right _ List.mem_cons_self) _ _ h rfl).tail huv

end Evaluator

end Conditions
