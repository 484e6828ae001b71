import Conditions.Proofs.Evaluation.Edits
import Conditions.Proofs.Evaluation.Polarity

/-!
# Conditions that stand for each other

Without a limit of depth the outcome of a condition is made of the outcomes of its parts. So where a
condition stands below another, in lists and below negations or in parts that no operator needs, one
with the same outcome may stand in its place: the whole has the outcome that it had, be it a verdict
or a fault (`evaluate_eq_iff_interchangeable`). Nothing is asked of what stands beside it: a list
that stops before the place or fails after it does so in either case.
-/

namespace Conditions

namespace Condition

variable {s c : Condition}

/-- Wherever a condition stands, another can stand in its place. -/
theorem exists_replaced {start position : Position} (s' : Condition)
    (h : ⟨position, s⟩ ∈ c.places start) :
    ∃ above c', Replaced s s' above c c' ∧ ⟨position, s'⟩ ∈ c'.places start := by
  induction c using Condition.induction generalizing start with
  | node c ihs ih =>
    rcases mem_places_iff.mp h with h | ⟨cs, hcs, i, d, hd, h⟩ | ⟨d, hd, h⟩
    · cases h
      exact ⟨[], s', .here, mem_places_self _ s'⟩
    · obtain ⟨above, d', hbelow, hplace⟩ := ihs cs hcs d (List.mem_of_getElem? hd) h
      obtain ⟨hi, rfl⟩ := List.getElem?_eq_some_iff.mp hd
      have hsplit : cs = cs.take i ++ cs[i] :: cs.drop (i + 1) := by
        rw [List.getElem_cons_drop, List.take_append_drop]
      have hlength : (cs.take i).length = i := List.length_take_of_le (Nat.le_of_lt hi)
      have hitem : (cs.take i ++ d' :: cs.drop (i + 1))[i]? = some d' := by
        rw [List.getElem?_append_right (Nat.le_of_eq hlength), hlength, Nat.sub_self]
        rfl
      refine ⟨_, _, .item (hcs.trans (congrArg some hsplit)) hbelow, ?_⟩
      exact mem_places_iff.mpr (.inr (.inl ⟨_, rfl, i, d', hitem, hplace⟩))
    · obtain ⟨above, d', hbelow, hplace⟩ := ih d hd h
      refine ⟨_, _, .operand hd hbelow, ?_⟩
      exact mem_places_iff.mpr (.inr (.inr ⟨d', rfl, hplace⟩))

end Condition

namespace Evaluator

open Condition (Replaced)

variable {e : Evaluator} {record : Record} {c d d' s s' : Condition}

/-- In a list, a condition may be replaced by one with the same outcome. -/
theorem evaluate_item {front rest : List Condition} (he : e.maxDepth = none)
    (conditions : c.conditions = some (front ++ d :: rest))
    (h : e.evaluate record d' = e.evaluate record d) :
    e.evaluate record { c with conditions := some (front ++ d' :: rest) } =
      e.evaluate record c := by
  rw [evaluate_eq he, evaluate_eq he record c, role_conditions e record conditions]
  cases hr : e.role record c with
  | join decisive cs =>
    obtain rfl : front ++ d :: rest = cs :=
      Option.some.inj (conditions.symm.trans (role_eq_join_iff.mp hr).2)
    show joinedOutcome decisive ((front ++ d' :: rest).map (e.evaluate record)) =
      joinedOutcome decisive ((front ++ d :: rest).map (e.evaluate record))
    simp only [List.map_append, List.map_cons, h]
  | _ => rfl

/-- A single condition may be replaced by one with the same outcome. -/
theorem evaluate_operand (he : e.maxDepth = none) (condition : c.condition = some d)
    (h : e.evaluate record d' = e.evaluate record d) :
    e.evaluate record { c with condition := some d' } = e.evaluate record c := by
  rw [evaluate_eq he, evaluate_eq he record c, role_condition e record condition]
  cases hr : e.role record c with
  | negation d₁ =>
    obtain rfl : d = d₁ := Option.some.inj (condition.symm.trans (role_eq_negation_iff.mp hr).2)
    exact congrArg (Except.map (!·)) h
  | _ => rfl

/-- What has the same outcome keeps the outcome of the whole. -/
theorem evaluate_of_replaced {above : List (Condition × ChildPart)} {c' : Condition}
    (he : e.maxDepth = none) (h : Replaced s s' above c c')
    (hs : e.evaluate record s' = e.evaluate record s) :
    e.evaluate record c' = e.evaluate record c := by
  induction h with
  | here => exact hs
  | item conditions below ih => exact evaluate_item he conditions ih
  | operand condition below ih => exact evaluate_operand he condition ih

/-- **Conditions with one outcome can stand for each other**, without a limit of depth. Two
conditions have the same outcome exactly if any condition that carries the one has the outcome that
it has with the other in its place; and wherever the one stands, the other can stand. -/
theorem evaluate_eq_iff_interchangeable (he : e.maxDepth = none) (record : Record)
    (s s' : Condition) :
    (e.evaluate record s' = e.evaluate record s ↔
      ∀ above c c', Replaced s s' above c c' → e.evaluate record c' = e.evaluate record c) ∧
    ∀ position c, ⟨position, s⟩ ∈ c.places [] →
      ∃ above c', Replaced s s' above c c' ∧ ⟨position, s'⟩ ∈ c'.places [] :=
  ⟨⟨fun hs _ _ _ h => evaluate_of_replaced he h hs, fun h => h [] s s' .here⟩,
    fun _ _ h => Condition.exists_replaced s' h⟩

/-- A condition below a negation, in a list that goes on to a blank token. -/
def beforeBlank (c : Condition) : Condition := .all [.negation c, .ofToken " "]

theorem interchangeable_beforeBlank :
    standard.evaluate .empty (beforeBlank (.any [])) = .error (.resolve (.malformed " ")) := by
  have hlist : (beforeBlank (.ofToken "between")).conditions =
      some ([] ++ .negation (.ofToken "between") :: [.ofToken " "]) := rfl
  have hreplaced : Replaced (.ofToken "between") (.any []) _ (beforeBlank (.ofToken "between"))
      (beforeBlank (.any [])) := .item hlist (.operand rfl .here)
  have hoperand : standard.evaluate .empty (.any []) =
      standard.evaluate .empty (.ofToken "between") := rfl
  have hbefore : standard.evaluate .empty (beforeBlank (.ofToken "between")) =
      .error (.resolve (.malformed " ")) := rfl
  have he : standard.maxDepth = none := rfl
  obtain ⟨hcongr, -⟩ := evaluate_eq_iff_interchangeable he .empty (.ofToken "between") (.any [])
  exact (hcongr.mp hoperand _ _ _ hreplaced).trans hbefore

end Evaluator

end Conditions
