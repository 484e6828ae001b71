import Conditions.Proofs.Evaluation.Outcomes
import Conditions.Proofs.Evaluation.Segments
import Mathlib.Data.List.Nodup

/-!
# Nested lists made flat

An `and` in the list of an `and` may give its conditions to the list above it, and an `or` in the
list of an `or`. `Condition.flattened` does so everywhere, from the leaves up, and leaves nothing to
be done (`flat_flattened`).

A run of the flat condition goes as the run of the condition itself, but for the nodes that are gone
(`run_flattened`). The reason is that a list goes on after some of its conditions exactly if it goes
on after each of them (`enterAll_append_stop`, `enterAll_append_next`), so a list runs alike if each
of its conditions is replaced by some that together run as it does (`thinned_enterAll`).
-/

namespace Conditions

namespace Condition

/-- Whether a node with a token that joins conditions absorbs a condition in its list: the condition
has a list, which it joins by the same operator. -/
def absorbs (resolver : Resolver) (op : String) (c : Condition) : Bool :=
  (resolver op = .ok .and || resolver op = .ok .or) && resolver c.op = resolver op &&
    c.conditions.isSome

mutual

/-- A condition with the lists of the conditions that it absorbs in their places, at every node. -/
def flattened (resolver : Resolver) : Condition → Condition
  | ⟨op, property, value, conditions, condition⟩ =>
    ⟨op, property, value,
      match conditions with
      | none => none
      | some cs => some (flattenedAll resolver op cs),
      match condition with
      | none => none
      | some c => some (flattened resolver c)⟩

/-- The conditions of a list below a token, flattened, and those that it absorbs replaced by their
own. -/
def flattenedAll (resolver : Resolver) (op : String) : List Condition → List Condition
  | [] => []
  | c :: cs =>
    (if absorbs resolver op c then (flattened resolver c).conditions.getD []
      else [flattened resolver c]) ++ flattenedAll resolver op cs

end

/-- No node of a condition absorbs a condition in its list. -/
inductive Flat (resolver : Resolver) : Condition → Prop where
  /-- A node does not, and no node below it. -/
  | node {c : Condition}
      (absorbs : ∀ cs, c.conditions = some cs → ∀ d ∈ cs, absorbs resolver c.op d = false)
      (conditions : ∀ cs, c.conditions = some cs → ∀ d ∈ cs, Flat resolver d)
      (condition : ∀ d, c.condition = some d → Flat resolver d) : Flat resolver c

/-- Whether a visited node of a condition is absorbed by the one in whose list it is. -/
def isAbsorbed (resolver : Resolver) (root : Condition) (v : Visit) : Bool :=
  (root.places []).any fun u =>
    v.position.isItemOf u.position && absorbs resolver u.node.op v.node

/-- What stands in the place of a condition of a flattened list. -/
def pieces (resolver : Resolver) (op : String) (c : Condition) : List Condition :=
  if absorbs resolver op c then (flattened resolver c).conditions.getD []
  else [flattened resolver c]

variable {resolver : Resolver} {op : String} {c d : Condition}

theorem flattenedAll_eq (resolver : Resolver) (op : String) (cs : List Condition) :
    flattenedAll resolver op cs = cs.flatMap (pieces resolver op) := by
  induction cs with
  | nil => rfl
  | cons c cs ih => rw [flattenedAll, ih, List.flatMap_cons, pieces]

theorem flattened_eq (resolver : Resolver) (c : Condition) :
    c.flattened resolver =
      { c with
        conditions := c.conditions.map fun cs => cs.flatMap (pieces resolver c.op)
        condition := c.condition.map (flattened resolver) } := by
  obtain ⟨op, property, value, conditions, condition⟩ := c
  rw [flattened.eq_def]
  cases conditions <;> cases condition <;> simp [flattenedAll_eq]

theorem absorbs_iff :
    absorbs resolver op c = true ↔ ∃ decisive, resolver op = .ok (.joining decisive) ∧
      resolver c.op = .ok (.joining decisive) ∧ ∃ cs, c.conditions = some cs := by
  simp only [absorbs, Bool.and_eq_true, Bool.or_eq_true, decide_eq_true_eq, and_assoc,
    Option.isSome_iff_exists, Bool.exists_bool, OperatorKind.joining]
  grind

/-- Whether a condition is absorbed depends on what it is resolved to and on whether it has a
list. -/
theorem absorbs_congr {op' : String} (hop : resolver op' = resolver op)
    (hc : resolver d.op = resolver c.op) (hconditions : d.conditions.isSome = c.conditions.isSome) :
    absorbs resolver op' d = absorbs resolver op c := by
  rw [absorbs, absorbs, hop, hc, hconditions]

theorem pieces_of_absorbs {cs : List Condition} (h : absorbs resolver op c = true)
    (hcs : c.conditions = some cs) :
    pieces resolver op c = cs.flatMap (pieces resolver c.op) := by
  rw [pieces, if_pos h, flattened_eq, hcs]
  rfl

theorem pieces_of_not_absorbs (h : absorbs resolver op c = false) :
    pieces resolver op c = [flattened resolver c] := if_neg (by simp [h])

/-- **A flattened condition is flat.** -/
theorem flat_flattened (resolver : Resolver) (c : Condition) :
    (c.flattened resolver).Flat resolver := by
  -- what a list of the condition is made of is flat as well, as it may come to stand further up
  suffices h : (∀ cs, c.conditions = some cs → ∀ d ∈ cs.flatMap (pieces resolver c.op),
      absorbs resolver c.op d = false ∧ d.Flat resolver) ∧ (c.flattened resolver).Flat resolver
    from h.2
  induction c using Condition.induction with
  | node c ihs ih =>
    have hlist : ∀ cs, c.conditions = some cs → ∀ d ∈ cs.flatMap (pieces resolver c.op),
        absorbs resolver c.op d = false ∧ d.Flat resolver := by
      intro cs hcs d hd
      obtain ⟨x, hx, hd⟩ := List.mem_flatMap.mp hd
      obtain ⟨hpieces, hflat⟩ := ihs cs hcs x hx
      cases habsorbs : absorbs resolver c.op x with
      | true =>
        obtain ⟨decisive, hop, hxop, xs, hxs⟩ := absorbs_iff.mp habsorbs
        rw [pieces_of_absorbs habsorbs hxs] at hd
        obtain ⟨hnot, hd⟩ := hpieces xs hxs d hd
        exact ⟨(absorbs_congr (hop.trans hxop.symm) rfl rfl).trans hnot, hd⟩
      | false =>
        rw [pieces_of_not_absorbs habsorbs, List.mem_singleton] at hd
        subst hd
        refine ⟨(absorbs_congr rfl ?_ ?_).trans habsorbs, hflat⟩ <;> simp [flattened_eq]
    have hop : (c.flattened resolver).op = c.op := by rw [flattened_eq]
    have hparts : ∀ cs, (c.flattened resolver).conditions = some cs →
        ∀ d ∈ cs, absorbs resolver c.op d = false ∧ d.Flat resolver := by
      rw [flattened_eq]
      intro _ hcs
      obtain ⟨cs, hown, rfl⟩ := Option.map_eq_some_iff.mp hcs
      exact hlist cs hown
    refine ⟨hlist, .node (fun cs hcs d hd => ?_) (fun cs hcs d hd => ?_) fun d hd => ?_⟩
    · rw [hop]
      exact (hparts cs hcs d hd).1
    · exact (hparts cs hcs d hd).2
    · rw [flattened_eq] at hd
      obtain ⟨d, hown, rfl⟩ := Option.map_eq_some_iff.mp hd
      exact (ih d hown).2

end Condition

/-- One run has the outcome of another, and gives its tokens but for those of some nodes. -/
structure Run.Thinned (gone : Visit → Bool) (r r' : Run) : Prop where
  /-- They end alike. -/
  outcome : r'.outcome = r.outcome
  /-- What is left of the tokens is the same. -/
  tokens : r'.tokens = (r.visits.filter (!gone ·)).map (·.node.op)

namespace Run.Thinned

variable {gone : Visit → Bool} {r r' s s' : Run} {v v' : Visit}

theorem done (outcome : Except EvaluationError Bool) :
    Thinned gone (.done outcome) (.done outcome) := ⟨rfl, rfl⟩

/-- A node that is left has the same token in both runs. -/
theorem visit (hv : gone v = false) (hop : v'.node.op = v.node.op) (h : Thinned gone r r') :
    Thinned gone (.after [v] r) (.after [v'] r') := by
  refine ⟨h.outcome, ?_⟩
  rw [visits_after, List.singleton_append,
    List.filter_cons_of_pos (p := fun v => !gone v) (by simp [hv]), List.map_cons, ← h.tokens,
    ← hop]
  rfl

/-- A node that is gone is not visited in the second run. -/
theorem visit_gone (hv : gone v = true) (h : Thinned gone r r') :
    Thinned gone (.after [v] r) r' := by
  refine ⟨h.outcome, ?_⟩
  rw [visits_after, List.singleton_append,
    List.filter_cons_of_neg (p := fun v => !gone v) (by simp [hv]), h.tokens]

theorem after (hr : Thinned gone r r') (hs : Thinned gone s s') :
    Thinned gone (.after r.visits s) (.after r'.visits s') := by
  refine ⟨hs.outcome, ?_⟩
  rw [visits_after, List.filter_append, List.map_append, ← hr.tokens, ← hs.tokens]
  exact List.map_append

theorem negate (h : Thinned gone r r') : Thinned gone r.negate r'.negate :=
  ⟨congrArg (Except.map (!·)) h.outcome, h.tokens⟩

end Run.Thinned

namespace Evaluator

open Condition (pieces)

variable {e : Evaluator} {record : Record} {position position' : Position} {decisive : Bool}
  {index : Nat} {cs ds : List Condition} {c : Condition}

/-! ### Lists one after another -/

theorem enterAll_singleton :
    e.enterAll record position decisive index [c] =
      e.enter record (.item index :: position) c := by
  by_cases h : (e.enter record (.item index :: position) c).outcome = .ok !decisive
  · rw [enterAll_next h, enterAll_nil, Run.after, Run.outcome_done, Run.visits_done,
      List.append_nil, ← h]
  · exact enterAll_stop h

/-- A list ends with the first conditions of it, if these do not let it go on. -/
theorem enterAll_append_stop
    (h : (e.enterAll record position decisive index cs).outcome ≠ .ok !decisive) :
    e.enterAll record position decisive index (cs ++ ds) =
      e.enterAll record position decisive index cs := by
  induction cs generalizing index with
  | nil =>
    rw [enterAll_nil] at h
    exact absurd rfl h
  | cons c cs ih =>
    by_cases hc : (e.enter record (.item index :: position) c).outcome = .ok !decisive
    · rw [enterAll_next hc, Run.outcome_after] at h
      rw [List.cons_append, enterAll_next hc, enterAll_next hc, ih h]
    · rw [List.cons_append, enterAll_stop hc, enterAll_stop hc]

/-- A list goes on after the first conditions of it, if these let it. -/
theorem enterAll_append_next
    (h : (e.enterAll record position decisive index cs).outcome = .ok !decisive) :
    e.enterAll record position decisive index (cs ++ ds) =
      .after (e.enterAll record position decisive index cs).visits
        (e.enterAll record position decisive (index + cs.length) ds) := by
  induction cs generalizing index with
  | nil => rw [enterAll_nil]; rfl
  | cons c cs ih =>
    by_cases hc : (e.enter record (.item index :: position) c).outcome = .ok !decisive
    · rw [enterAll_next hc, Run.outcome_after] at h
      rw [List.cons_append, enterAll_next hc, enterAll_next hc, ih h, List.length_cons,
        Nat.add_assoc, Nat.add_comm 1]
      simp only [Run.after, List.append_assoc]
    · rw [enterAll_stop hc] at h
      exact absurd h hc

/-- A list runs alike, but for some nodes, if each of its conditions is replaced by some that
together run as it does. -/
theorem thinned_enterAll {gone : Visit → Bool} (pieces : Condition → List Condition)
    (h : ∀ i d, cs[i]? = some d → ∀ index',
      Run.Thinned gone (e.enter record (.item (index + i) :: position) d)
        (e.enterAll record position' decisive index' (pieces d))) (index' : Nat) :
    Run.Thinned gone (e.enterAll record position decisive index cs)
      (e.enterAll record position' decisive index' (cs.flatMap pieces)) := by
  induction cs generalizing index index' with
  | nil =>
    rw [List.flatMap_nil, enterAll_nil, enterAll_nil]
    exact .done _
  | cons c cs ih =>
    have hc := h 0 c rfl index'
    rw [Nat.add_zero] at hc
    rw [List.flatMap_cons]
    by_cases ho : (e.enter record (.item index :: position) c).outcome = .ok !decisive
    · rw [enterAll_next ho, enterAll_append_next (hc.outcome.trans ho)]
      refine hc.after (ih (fun i d hd => ?_) _)
      rw [Nat.add_assoc, Nat.add_comm 1]
      exact h (i + 1) d hd
    · rw [enterAll_stop ho, enterAll_append_stop (hc.outcome ▸ ho)]
      exact hc

/-! ### Runs of flattened conditions -/

/-- A flattened node has the role of the node, with flattened conditions. -/
theorem role_flattened (e : Evaluator) (record : Record) (c : Condition) :
    e.role record (c.flattened e.resolver) =
      match e.role record c with
      | .join decisive cs => .join decisive (cs.flatMap (pieces e.resolver c.op))
      | .negation d => .negation (d.flattened e.resolver)
      | role => role := by
  rw [Condition.flattened_eq]
  unfold role
  cases e.resolver c.op with
  | error error => rfl
  | ok kind => cases kind <;> cases c.conditions <;> cases c.condition <;> rfl

/-- Of the nodes below a position, those are gone that are absorbed in the list they are in. -/
def GoneIfAbsorbed (resolver : Resolver) (gone : Visit → Bool) (position : Position)
    (c : Condition) : Prop :=
  ∀ u ∈ c.places position,
    (∀ cs, u.node.conditions = some cs → ∀ i d, cs[i]? = some d →
      gone ⟨.item i :: u.position, d⟩ = Condition.absorbs resolver u.node.op d) ∧
    ∀ d, u.node.condition = some d → gone ⟨.operand :: u.position, d⟩ = false

theorem GoneIfAbsorbed.item {resolver : Resolver} {gone : Visit → Bool} {i : Nat} {d : Condition}
    (h : GoneIfAbsorbed resolver gone position c) (hcs : c.conditions = some cs)
    (hd : cs[i]? = some d) : GoneIfAbsorbed resolver gone (.item i :: position) d := by
  intro u hu
  exact h u (Condition.mem_places_iff.mpr (.inr (.inl ⟨cs, hcs, i, d, hd, hu⟩)))

theorem GoneIfAbsorbed.operand {resolver : Resolver} {gone : Visit → Bool} {d : Condition}
    (h : GoneIfAbsorbed resolver gone position c) (hd : c.condition = some d) :
    GoneIfAbsorbed resolver gone (.operand :: position) d := by
  intro u hu
  exact h u (Condition.mem_places_iff.mpr (.inr (.inr ⟨d, hd, hu⟩)))

/-- The nodes of a condition that are absorbed are told by their positions. -/
theorem goneIfAbsorbed_isAbsorbed (resolver : Resolver) (c : Condition) :
    GoneIfAbsorbed resolver (c.isAbsorbed resolver) [] c := by
  intro u hu
  constructor
  · intro cs hcs i d hd
    rw [Bool.eq_iff_iff, Condition.isAbsorbed, List.any_eq_true]
    constructor
    · rintro ⟨w, hw, habsorbs⟩
      rw [Bool.and_eq_true, isItemOf_iff] at habsorbs
      obtain ⟨⟨j, hj⟩, habsorbs⟩ := habsorbs
      have hposition : w.position = u.position := (List.cons.inj hj).2.symm
      rwa [← List.inj_on_of_nodup_map (Condition.nodup_places [] c) hw hu hposition]
    · intro habsorbs
      exact ⟨u, hu, by rw [Bool.and_eq_true, isItemOf_iff]; exact ⟨⟨i, rfl⟩, habsorbs⟩⟩
  · intro d hd
    rw [Condition.isAbsorbed, List.any_eq_false]
    intro w _
    simp [Position.isItemOf]

/-- **A flattened condition runs alike**, but for the nodes that are gone. -/
theorem thinned_flattened (he : e.maxDepth = none) (record : Record) {gone : Visit → Bool}
    (position position' : Position) (c : Condition)
    (hgone : GoneIfAbsorbed e.resolver gone position c) :
    (∀ decisive cs, e.role record c = .join decisive cs → ∀ index',
      Run.Thinned gone (e.enterAll record position decisive 0 cs)
        (e.enterAll record position' decisive index' (cs.flatMap (pieces e.resolver c.op)))) ∧
    (gone ⟨position, c⟩ = false →
      Run.Thinned gone (e.enter record position c)
        (e.enter record position' (c.flattened e.resolver))) := by
  have admits (position : Position) : e.Admits position := by simp [Admits, he]
  induction c using Condition.induction generalizing position position' with
  | node c ihs ih =>
    have hlist : ∀ (position' : Position) decisive cs, e.role record c = .join decisive cs →
        ∀ index', Run.Thinned gone (e.enterAll record position decisive 0 cs)
          (e.enterAll record position' decisive index'
            (cs.flatMap (pieces e.resolver c.op))) := by
      intro position' decisive cs hr index'
      obtain ⟨hop, hcs⟩ := role_eq_join_iff.mp hr
      refine thinned_enterAll _ (fun i d hd index' => ?_) index'
      rw [Nat.zero_add]
      have hd' := hgone.item hcs hd
      have hmem := List.mem_of_getElem? hd
      have habsorbed := (hgone ⟨position, c⟩ (Condition.mem_places_self _ c)).1 cs hcs i d hd
      cases habsorbs : Condition.absorbs e.resolver c.op d with
      | true =>
        obtain ⟨decisive', hop', hdop, ds, hds⟩ := Condition.absorbs_iff.mp habsorbs
        have hdr : e.role record d = .join decisive ds :=
          role_eq_join_iff.mpr ⟨hdop.trans (hop'.symm.trans hop), hds⟩
        rw [Condition.pieces_of_absorbs habsorbs hds, enter_join (admits _) hdr]
        exact ((ihs cs hcs d hmem _ position' hd').1 decisive ds hdr index').visit_gone
          (habsorbed.trans habsorbs)
      | false =>
        rw [Condition.pieces_of_not_absorbs habsorbs, enterAll_singleton]
        exact (ihs cs hcs d hmem _ _ hd').2 (habsorbed.trans habsorbs)
    refine ⟨hlist position', fun hc => ?_⟩
    have hop : (c.flattened e.resolver).op = c.op := by rw [Condition.flattened_eq]
    have hrole := role_flattened e record c
    cases hr : e.role record c with
    | fault error =>
      rw [hr] at hrole
      rw [enter_fault (admits _) hr, enter_fault (admits _) hrole]
      exact (Run.Thinned.done (.error error)).visit hc hop
    | leaf verdict =>
      rw [hr] at hrole
      rw [enter_leaf (admits _) hr, enter_leaf (admits _) hrole]
      exact (Run.Thinned.done (.ok verdict)).visit hc hop
    | join decisive cs =>
      rw [hr] at hrole
      rw [enter_join (admits _) hr, enter_join (admits _) hrole]
      exact (hlist position' decisive cs hr 0).visit hc hop
    | negation d =>
      rw [hr] at hrole
      have hd := (role_eq_negation_iff.mp hr).2
      rw [enter_negation (admits _) hr, enter_negation (admits _) hrole]
      refine ((ih d hd _ _ (hgone.operand hd)).2 ?_).negate.visit hc hop
      exact (hgone ⟨position, c⟩ (Condition.mem_places_self _ c)).2 d hd

/-- **Nested lists can be made flat**, without a limit of depth. A flattened condition has the
outcome of the condition, be it a verdict or a fault, and gives the same tokens to the resolver, but
for those of the nodes that are absorbed; and none of its nodes could still be absorbed. -/
theorem run_flattened (he : e.maxDepth = none) (record : Record) (c : Condition) :
    (e.run record (c.flattened e.resolver)).outcome = (e.run record c).outcome ∧
      (e.run record (c.flattened e.resolver)).tokens =
        ((e.run record c).visits.filter (!c.isAbsorbed e.resolver ·)).map (·.node.op) ∧
      (c.flattened e.resolver).Flat e.resolver := by
  have hroot : c.isAbsorbed e.resolver ⟨[], c⟩ = false := by
    rw [Condition.isAbsorbed, List.any_eq_false]
    intro u _
    simp [Position.isItemOf]
  have hthinned := (thinned_flattened he record [] [] c
    (goneIfAbsorbed_isAbsorbed e.resolver c)).2 hroot
  exact ⟨hthinned.outcome, hthinned.tokens, c.flat_flattened e.resolver⟩

/-- Lists of one kind within each other, one of them empty, before a node that lacks its list. -/
def nested : Condition :=
  .all [.all [{ Condition.ofToken "all" with conditions := some [] },
      .negation (.any [.any [.ofToken "late"], .ofToken "due"])],
    .ofToken "&&"]

theorem run_flattened_nested :
    nested.flattened standard.resolver =
        .all [.negation (.any [.ofToken "late", .ofToken "due"]), .ofToken "&&"] ∧
      (standard.run .empty (nested.flattened standard.resolver)).outcome =
        .error (.missingPart .and .conditions) ∧
      ((standard.run .empty nested).visits.filter
          (!nested.isAbsorbed standard.resolver ·)).map (·.node.op) =
        ["and", "not", "or", "late", "due", "&&"] := by
  have he : standard.maxDepth = none := rfl
  obtain ⟨houtcome, htokens, -⟩ := run_flattened he .empty nested
  have hown : (standard.run .empty nested).outcome = .error (.missingPart .and .conditions) := rfl
  have hflat : (standard.run .empty (nested.flattened standard.resolver)).tokens =
      ["and", "not", "or", "late", "due", "&&"] := rfl
  exact ⟨rfl, houtcome.trans hown, htokens.symm.trans hflat⟩

end Evaluator

end Conditions
