import Conditions.Proofs.Evaluation.Outcomes
import Conditions.Proofs.Evaluation.Trace
import Conditions.Proofs.Evaluation.Meaning
import Mathlib.Algebra.Ring.Parity
import Mathlib.Data.List.Forall2

/-!
# Polarity

A condition below another speaks for it or against it. Below an even number of negations, a verdict
that becomes true can only make the whole true, and below an odd number only false, whatever `and`
and `or` stand between (`below_meaning`). The argument is about meanings, which are there for every
node, and not about runs, in which a changed verdict changes what is visited at all.

So `evaluate_replaced` says in which sense it is safe that an unrecognized token never holds: below
an even number of negations it never turns a false verdict into a true one.
-/

namespace Conditions

/-- One condition is another with `s'` in the place of an `s` that it carries. The nodes above that
place are listed from the root down, each with the part in which the next one stands. -/
inductive Condition.Replaced (s s' : Condition) :
    List (Condition × ChildPart) → Condition → Condition → Prop where
  /-- The whole condition is replaced. -/
  | here : Replaced s s' [] s s'
  /-- A condition of the list is replaced, or one below it. -/
  | item {above : List (Condition × ChildPart)} {c d d' : Condition} {front rest : List Condition}
      (conditions : c.conditions = some (front ++ d :: rest)) (below : Replaced s s' above d d') :
      Replaced s s' ((c, .conditions) :: above) c
        { c with conditions := some (front ++ d' :: rest) }
  /-- The single condition is replaced, or one below it. -/
  | operand {above : List (Condition × ChildPart)} {c d d' : Condition}
      (condition : c.condition = some d) (below : Replaced s s' above d d') :
      Replaced s s' ((c, .condition) :: above) c { c with condition := some d' }

/-- The order of two verdicts, false before true, or the opposite order. -/
def Below (opposite v w : Bool) : Prop := if opposite then w ≤ v else v ≤ w

instance (opposite v w : Bool) : Decidable (Below opposite v w) :=
  inferInstanceAs (Decidable (if opposite then w ≤ v else v ≤ w))

theorem Below.refl (opposite v : Bool) : Below opposite v v := by
  cases opposite <;> exact Bool.le_refl v

theorem Below.not {opposite v w : Bool} (h : Below opposite v w) :
    Below (!opposite) (!v) (!w) := by
  revert h
  cases opposite <;> cases v <;> cases w <;> decide

theorem Below.and {opposite v w x y : Bool} (h : Below opposite v w) (h' : Below opposite x y) :
    Below opposite (v && x) (w && y) := by
  revert h h'
  cases opposite <;> cases v <;> cases w <;> cases x <;> cases y <;> decide

theorem Below.or {opposite v w x y : Bool} (h : Below opposite v w) (h' : Below opposite x y) :
    Below opposite (v || x) (w || y) := by
  revert h h'
  cases opposite <;> cases v <;> cases w <;> cases x <;> cases y <;> decide

namespace Evaluator

open Condition (Replaced)

variable {e : Evaluator} {record : Record} {c c' s s' : Condition}
  {above : List (Condition × ChildPart)}

/-- No node that is reached from a condition through the parts that operators need is at fault. -/
def Faultless (e : Evaluator) (c : Condition) : Prop :=
  ∀ u, e.Reaches ⟨[], c⟩ u → e.fault? u.node = none

/-- The operator of a node needs a part. -/
def Needs (e : Evaluator) (c : Condition) : ChildPart → Prop
  | .conditions => e.resolver c.op = .ok .and ∨ e.resolver c.op = .ok .or
  | .condition => e.resolver c.op = .ok .not

/-- The number of negations among some nodes. -/
def negations (e : Evaluator) (above : List (Condition × ChildPart)) : Nat :=
  above.countP fun n => e.resolver n.1.op = .ok .not

/-! ### Meanings in order -/

/-- A condition without nodes at fault and within the limit of depth has its meaning as verdict. -/
theorem evaluate_of_faultless (hfault : e.Faultless c)
    (hdepth : ∀ limit, e.maxDepth = some limit → c.depth ≤ limit) (β : Position → Bool) :
    e.evaluate record c = .ok (e.meaning record β [] c) := by
  obtain ⟨verdict, ho⟩ : ∃ verdict, (e.run record c).outcome = .ok verdict :=
    exists_ok_iff.mpr ⟨fun v hv => hfault v (reaches_of_mem_visits (List.mem_of_getLast? hv)),
      outcome_ne_tooDeep hdepth⟩
  rw [meaning_of_outcome β [] c verdict ho]
  exact ho

/-- If no node of a condition is at fault, then none that is reached. -/
theorem faultless_of_places (h : ∀ v ∈ c.places [], e.fault? v.node = none) : e.Faultless c :=
  fun u hu => h u (mem_places_of_reaches hu)

/-- Without a limit of depth, a verdict is the meaning at every position. -/
theorem meaning_of_evaluate {v : Bool} (he : e.maxDepth = none)
    (h : e.evaluate record c = .ok v) (β : Position → Bool) (position : Position) :
    e.meaning record β position c = v :=
  meaning_of_outcome β position c v ((outcome_enter he position c).trans h)

theorem joined_cons (decisive v : Bool) (vs : List Bool) :
    joined decisive (v :: vs) =
      bif decisive then v || joined decisive vs else v && joined decisive vs := by
  by_cases hv : v = decisive
  · subst hv
    rw [joined_cons_self]
    cases v <;> rfl
  · obtain rfl : v = !decisive := by cases v <;> cases decisive <;> simp_all
    rw [joined_cons_not]
    cases decisive <;> simp

/-- Verdicts in order are in order when joined. -/
theorem below_joined {opposite : Bool} (decisive : Bool) {vs ws : List Bool}
    (h : List.Forall₂ (Below opposite) vs ws) :
    Below opposite (joined decisive vs) (joined decisive ws) := by
  induction h with
  | nil => exact .refl opposite _
  | cons hvw _ ih =>
    rw [joined_cons, joined_cons]
    cases decisive with
    | false => exact hvw.and ih
    | true => exact hvw.or ih

theorem meanings_append (β : Position → Bool) (position : Position) (index : Nat)
    (cs ds : List Condition) :
    e.meanings record β position index (cs ++ ds) =
      e.meanings record β position index cs ++
        e.meanings record β position (index + cs.length) ds := by
  induction cs generalizing index with
  | nil => rfl
  | cons c cs ih =>
    rw [List.cons_append, meanings, meanings, ih, List.cons_append, List.length_cons,
      Nat.add_assoc, Nat.add_comm 1]

/-- What joins conditions follows each of them. -/
theorem below_item {opposite : Bool} {β : Position → Bool} {position : Position}
    {d d' : Condition} {front rest : List Condition} (hn : e.Needs c .conditions)
    (conditions : c.conditions = some (front ++ d :: rest))
    (h : Below opposite (e.meaning record β (.item front.length :: position) d)
      (e.meaning record β (.item front.length :: position) d')) :
    Below opposite (e.meaning record β position c)
      (e.meaning record β position { c with conditions := some (front ++ d' :: rest) }) := by
  obtain ⟨decisive, hop⟩ : ∃ decisive, e.resolver c.op = .ok (.joining decisive) := by
    rcases hn with hn | hn
    · exact ⟨false, hn⟩
    · exact ⟨true, hn⟩
  have hr : e.role record c = .join decisive (front ++ d :: rest) :=
    role_eq_join_iff.mpr ⟨hop, conditions⟩
  have hr' : e.role record { c with conditions := some (front ++ d' :: rest) } =
      .join decisive (front ++ d' :: rest) := role_eq_join_iff.mpr ⟨hop, rfl⟩
  rw [meaning_eq, hr, meaning_eq, hr']
  refine below_joined decisive ?_
  rw [meanings_append, meanings_append, meanings, meanings, Nat.zero_add]
  refine List.rel_append (List.forall₂_same.mpr fun v _ => .refl opposite v) (.cons h ?_)
  exact List.forall₂_same.mpr fun v _ => .refl opposite v

/-- What negates a condition goes against it. -/
theorem below_operand {opposite : Bool} {β : Position → Bool} {position : Position}
    {d d' : Condition} (hn : e.Needs c .condition) (condition : c.condition = some d)
    (h : Below opposite (e.meaning record β (.operand :: position) d)
      (e.meaning record β (.operand :: position) d')) :
    Below (!opposite) (e.meaning record β position c)
      (e.meaning record β position { c with condition := some d' }) := by
  have hr : e.role record c = .negation d := role_eq_negation_iff.mpr ⟨hn, condition⟩
  have hr' : e.role record { c with condition := some d' } = .negation d' :=
    role_eq_negation_iff.mpr ⟨hn, rfl⟩
  rw [meaning_eq, hr, meaning_eq, hr']
  exact h.not

theorem negations_cons_conditions (hn : e.Needs c .conditions) :
    e.negations ((c, .conditions) :: above) = e.negations above := by
  refine List.countP_cons_of_neg ?_
  rcases hn with hn | hn <;> simp [hn]

theorem negations_cons_condition (hn : e.Needs c .condition) :
    e.negations ((c, .condition) :: above) = e.negations above + 1 :=
  List.countP_cons_of_pos (decide_eq_true hn)

/-- **Replacing a condition below another keeps the order of meanings** below an even number of
negations, and turns it round below an odd number. -/
theorem below_meaning {opposite : Bool} {β : Position → Bool} (h : Replaced s s' above c c')
    (hneeds : ∀ n ∈ above, e.Needs n.1 n.2)
    (hs : ∀ position, Below opposite (e.meaning record β position s)
      (e.meaning record β position s')) :
    (Even (e.negations above) → ∀ position, Below opposite (e.meaning record β position c)
      (e.meaning record β position c')) ∧
    (Odd (e.negations above) → ∀ position, Below (!opposite) (e.meaning record β position c)
      (e.meaning record β position c')) := by
  induction h with
  | here => exact ⟨fun _ => hs, fun hodd => absurd hodd (by simp [negations])⟩
  | @item above c d d' front rest conditions below ih =>
    obtain ⟨hn, hneeds⟩ := List.forall_mem_cons.mp hneeds
    obtain ⟨heven, hodd⟩ := ih hneeds
    rw [negations_cons_conditions hn]
    exact ⟨fun h position => below_item hn conditions (heven h _),
      fun h position => below_item hn conditions (hodd h _)⟩
  | @operand above c d d' condition below ih =>
    obtain ⟨hn, hneeds⟩ := List.forall_mem_cons.mp hneeds
    obtain ⟨heven, hodd⟩ := ih hneeds
    rw [negations_cons_condition hn, Nat.even_add_one, Nat.not_even_iff_odd, Nat.odd_add_one,
      Nat.not_odd_iff_even]
    refine ⟨fun h position => ?_, fun h position => below_operand hn condition (heven h _)⟩
    rw [← Bool.not_not opposite]
    exact below_operand hn condition (hodd h _)

/-! ### Verdicts in order -/

/-- **A condition speaks for or against the whole**, by the number of negations above it. Let one
that does not hold be replaced, or let it be replaced by one that holds, where no node that counts
is at fault. Below an even number of negations the whole then holds if it held before; below an odd
number it held before if it holds now. And a condition with an unrecognized token, in the place of
any other below an even number of negations, never makes the whole hold if it did not. -/
theorem evaluate_replaced (he : e.maxDepth = none) (record : Record) (h : Replaced s s' above c c')
    (hneeds : ∀ n ∈ above, e.Needs n.1 n.2) :
    (e.Faultless c → e.Faultless c' →
      e.evaluate record s = .ok false ∨ e.evaluate record s' = .ok true →
      (Even (e.negations above) →
        e.evaluate record c = .ok true → e.evaluate record c' = .ok true) ∧
      (Odd (e.negations above) →
        e.evaluate record c' = .ok true → e.evaluate record c = .ok true)) ∧
    (Even (e.negations above) → (∃ token, e.resolver s'.op = .ok (.unrecognized token)) →
      e.evaluate record c = .ok false → e.evaluate record c' ≠ .ok true) := by
  have hdepth (c : Condition) : ∀ limit, e.maxDepth = some limit → c.depth ≤ limit := by simp [he]
  refine ⟨fun hc hc' hs => ?_, fun heven ⟨token, hop⟩ ho ho' => ?_⟩
  · have hmeaning : ∀ position, Below false (e.meaning record (fun _ => false) position s)
        (e.meaning record (fun _ => false) position s') := by
      intro position
      rcases hs with hs | hs
      · rw [meaning_of_evaluate he hs]
        exact Bool.false_le _
      · rw [meaning_of_evaluate he hs]
        exact Bool.le_true _
    obtain ⟨heven, hodd⟩ := below_meaning h hneeds hmeaning
    rw [evaluate_of_faultless hc (hdepth c) fun _ => false,
      evaluate_of_faultless hc' (hdepth c') fun _ => false, Except.ok.injEq, Except.ok.injEq]
    exact ⟨fun hn => heven hn [], fun hn => hodd hn []⟩
  · have hs' : e.evaluate record s' = .ok false := by
      rw [evaluate_eq he]
      simp only [role, hop]
    have hmeaning : ∀ position, Below true (e.meaning record (fun _ => false) position s)
        (e.meaning record (fun _ => false) position s') := by
      intro position
      rw [meaning_of_evaluate he hs']
      exact Bool.false_le _
    have hle := (below_meaning h hneeds hmeaning).1 heven []
    rw [meaning_of_evaluate he ho, meaning_of_evaluate he ho'] at hle
    exact absurd hle (by decide)

/-- A condition below two negations, in a list that is settled before it. -/
def belowTwo (c : Condition) : Condition := .negation (.all [.any [], .negation c])

theorem evaluate_replaced_belowTwo :
    standard.evaluate .empty (belowTwo (.ofToken "between")) = .ok true ∧
      standard.evaluate .empty (belowTwo (.all [])) = .ok true := by
  have hlist : (Condition.all [.any [], .negation (.ofToken "between")]).conditions =
      some ([.any []] ++ .negation (.ofToken "between") :: []) := rfl
  have hreplaced : Replaced (.ofToken "between") (.all []) _ (belowTwo (.ofToken "between"))
      (belowTwo (.all [])) := .operand rfl (.item hlist (.operand rfl .here))
  have hbefore : standard.evaluate .empty (belowTwo (.ofToken "between")) = .ok true := rfl
  have hsound : standard.Faultless (belowTwo (.ofToken "between")) :=
    faultless_of_places (by decide)
  have hsound' : standard.Faultless (belowTwo (.all [])) := faultless_of_places (by decide)
  have he : standard.maxDepth = none := rfl
  have hneeds : standard.Needs (belowTwo (.ofToken "between")) .condition ∧
      standard.Needs (.all [.any [], .negation (.ofToken "between")]) .conditions ∧
      standard.Needs (.negation (.ofToken "between")) .condition := ⟨rfl, .inl rfl, rfl⟩
  obtain ⟨hinstead, -⟩ := evaluate_replaced he .empty hreplaced (by simpa using hneeds)
  exact ⟨hbefore, (hinstead hsound hsound' (.inl rfl)).1 (by decide) hbefore⟩

end Evaluator

end Conditions
