import Conditions.Proofs.Evaluation.Visits

/-!
# Pre-order

`Condition.places` lists all the nodes of a condition, whether or not an evaluation visits them,
each before the conditions that it carries. A run visits some of them, in that order
(`visits_sublist_places`), and no position comes twice (`nodup_places`).
-/

namespace Conditions

open scoped List

theorem not_cons_suffix_self (s : Step) (position : Position) : ¬ s :: position <:+ position :=
  fun h => absurd h.length_le (Nat.not_succ_le_self _)

/-- Below one node, the next step tells positions apart. -/
theorem step_eq_of_suffix {s t : Step} {position below : Position} (hs : s :: position <:+ below)
    (ht : t :: position <:+ below) : s = t := by
  have h : s :: position <:+ t :: position := List.suffix_of_suffix_length_le hs ht (Nat.le_refl _)
  exact (List.cons.inj (h.eq_of_length rfl)).1

namespace Condition

mutual

/-- The nodes of a condition at a position: the node, then those of its list, then those of its
single condition. -/
def places (position : Position) : Condition → List Visit
  | ⟨op, property, value, conditions, condition⟩ =>
    ⟨position, ⟨op, property, value, conditions, condition⟩⟩ ::
      ((match conditions with
        | none => []
        | some cs => listPlaces position 0 cs) ++
      match condition with
        | none => []
        | some d => places (.operand :: position) d)

/-- The nodes of the conditions of a list, from an index on. -/
def listPlaces (position : Position) (index : Nat) : List Condition → List Visit
  | [] => []
  | c :: cs => places (.item index :: position) c ++ listPlaces position (index + 1) cs

end

theorem places_eq (position : Position) (c : Condition) :
    c.places position = ⟨position, c⟩ ::
      (c.conditions.elim [] (listPlaces position 0) ++
        c.condition.elim [] (places (.operand :: position))) := by
  obtain ⟨op, property, value, conditions, condition⟩ := c
  rw [places.eq_def]
  cases conditions <;> cases condition <;> rfl

theorem mem_places_self (position : Position) (c : Condition) :
    ⟨position, c⟩ ∈ c.places position := by
  rw [places_eq]
  exact List.mem_cons_self

/-- The nodes of a list are those of its conditions. -/
theorem mem_listPlaces {position : Position} {index : Nat} {cs : List Condition} {v : Visit} :
    v ∈ listPlaces position index cs ↔
      ∃ (i : Nat) (d : Condition), cs[i]? = some d ∧
        v ∈ d.places (.item (index + i) :: position) := by
  induction cs generalizing index with
  | nil => simp [listPlaces]
  | cons c cs ih =>
    rw [listPlaces, List.mem_append, ih]
    constructor
    · rintro (hv | ⟨i, d, hd, hv⟩)
      · exact ⟨0, c, rfl, hv⟩
      · exact ⟨i + 1, d, hd, by rwa [Nat.add_assoc, Nat.add_comm 1 i] at hv⟩
    · rintro ⟨i, d, hd, hv⟩
      cases i with
      | zero =>
        cases hd
        exact .inl hv
      | succ i => exact .inr ⟨i, d, hd, by rwa [Nat.add_assoc, Nat.add_comm 1 i]⟩

/-- The nodes of a condition are its root, those of the conditions in its list, and those of its
single condition. -/
theorem mem_places_iff {position : Position} {c : Condition} {v : Visit} :
    v ∈ c.places position ↔ v = ⟨position, c⟩ ∨
      (∃ cs, c.conditions = some cs ∧ ∃ (i : Nat) (d : Condition), cs[i]? = some d ∧
        v ∈ d.places (.item i :: position)) ∨
      ∃ d, c.condition = some d ∧ v ∈ d.places (.operand :: position) := by
  rw [places_eq, List.mem_cons, List.mem_append]
  refine or_congr_right (or_congr ?_ ?_)
  · cases c.conditions with
    | none => simp
    | some cs => simp [mem_listPlaces]
  · cases c.condition with
    | none => simp
    | some d => simp

/-- Every node stands below the root. -/
theorem suffix_of_mem_places {position : Position} {c : Condition} :
    ∀ v ∈ c.places position, position <:+ v.position := by
  induction c using Condition.induction generalizing position with
  | node c ihs ih =>
    intro v hv
    rcases mem_places_iff.mp hv with rfl | ⟨cs, hcs, i, d, hd, hv⟩ | ⟨d, hd, hv⟩
    · exact List.suffix_rfl
    · exact (List.suffix_cons _ _).trans (ihs cs hcs d (List.mem_of_getElem? hd) v hv)
    · exact (List.suffix_cons _ _).trans (ih d hd v hv)

/-- No two nodes of a list stand in one place. -/
theorem nodup_listPlaces {position : Position} {cs : List Condition}
    (h : ∀ c ∈ cs, ∀ position, ((c.places position).map (·.position)).Nodup) (index : Nat) :
    ((listPlaces position index cs).map (·.position)).Nodup := by
  induction cs generalizing index with
  | nil => exact List.nodup_nil
  | cons c cs ih =>
    rw [listPlaces, List.map_append, List.nodup_append]
    refine ⟨h c List.mem_cons_self _, ih (fun d hd => h d (List.mem_cons_of_mem c hd)) _, ?_⟩
    intro p hp q hq
    obtain ⟨v, hv, rfl⟩ := List.mem_map.mp hp
    obtain ⟨w, hw, rfl⟩ := List.mem_map.mp hq
    obtain ⟨i, d, -, hw⟩ := mem_listPlaces.mp hw
    intro heq
    have hs := suffix_of_mem_places v hv
    rw [heq] at hs
    have := Step.item.inj (step_eq_of_suffix hs (suffix_of_mem_places w hw))
    omega

/-- **No two nodes stand in one place**. -/
theorem nodup_places (position : Position) (c : Condition) :
    ((c.places position).map (·.position)).Nodup := by
  induction c using Condition.induction generalizing position with
  | node c ihs ih =>
    have hlist (v : Visit) (hv : v ∈ c.conditions.elim [] (listPlaces position 0)) :
        ∃ i, Step.item i :: position <:+ v.position := by
      cases hcs : c.conditions with
      | none => simp [hcs] at hv
      | some cs =>
        rw [hcs, Option.elim_some, mem_listPlaces] at hv
        obtain ⟨i, d, -, hv⟩ := hv
        exact ⟨0 + i, suffix_of_mem_places v hv⟩
    have hsingle (v : Visit) (hv : v ∈ c.condition.elim [] (places (.operand :: position))) :
        .operand :: position <:+ v.position := by
      cases hc : c.condition with
      | none => simp [hc] at hv
      | some d =>
        rw [hc, Option.elim_some] at hv
        exact suffix_of_mem_places v hv
    rw [places_eq, List.map_cons, List.map_append, List.nodup_cons, List.nodup_append]
    refine ⟨fun hmem => ?_, ?_, ?_, ?_⟩
    · rw [← List.map_append] at hmem
      obtain ⟨v, hv, hpos⟩ := List.mem_map.mp hmem
      obtain ⟨s, hs⟩ : ∃ s, s :: position <:+ v.position := by
        rcases List.mem_append.mp hv with hv | hv
        · obtain ⟨i, hi⟩ := hlist v hv
          exact ⟨_, hi⟩
        · exact ⟨_, hsingle v hv⟩
      rw [hpos] at hs
      exact not_cons_suffix_self s position hs
    · cases hcs : c.conditions with
      | none => exact List.nodup_nil
      | some cs => exact nodup_listPlaces (fun d hd position => ihs cs hcs d hd position) 0
    · cases hc : c.condition with
      | none => exact List.nodup_nil
      | some d => exact ih d hc _
    · intro p hp q hq
      obtain ⟨v, hv, rfl⟩ := List.mem_map.mp hp
      obtain ⟨w, hw, rfl⟩ := List.mem_map.mp hq
      intro heq
      obtain ⟨i, hs⟩ := hlist v hv
      rw [heq] at hs
      cases step_eq_of_suffix hs (hsingle w hw)

end Condition

/-- A node that opens another has it among the nodes below. -/
theorem Evaluator.mem_places_of_opens {e : Evaluator} {position : Position} {c : Condition}
    {u v : Visit} (hu : u ∈ c.places position) (h : e.Opens u v) : v ∈ c.places position := by
  induction c using Condition.induction generalizing position with
  | node c ihs ih =>
    rw [Condition.mem_places_iff] at hu ⊢
    rcases hu with rfl | ⟨cs, hcs, i, d, hd, hu⟩ | ⟨d, hd, hu⟩
    · cases h with
      | @item cs index d kind conditions item =>
        exact .inr (.inl ⟨cs, conditions, index, d, item, Condition.mem_places_self _ d⟩)
      | @operand d kind condition =>
        exact .inr (.inr ⟨d, condition, Condition.mem_places_self _ d⟩)
    · exact .inr (.inl ⟨cs, hcs, i, d, hd, ihs cs hcs d (List.mem_of_getElem? hd) hu⟩)
    · exact .inr (.inr ⟨d, hd, ih d hd hu⟩)

/-- What is reached from a node is among the nodes below it. -/
theorem Evaluator.mem_places_of_reaches {e : Evaluator} {position : Position} {c : Condition}
    {v : Visit} (h : e.Reaches ⟨position, c⟩ v) : v ∈ c.places position := by
  induction h with
  | refl => exact Condition.mem_places_self position c
  | tail _ hopens ih => exact mem_places_of_opens ih hopens

/-- **A run visits nodes in pre-order**. -/
theorem Evaluator.visits_sublist_places (e : Evaluator) (record : Record) (position : Position)
    (c : Condition) : (e.enter record position c).visits <+ c.places position := by
  apply walk_induction e record (P := fun position c r => r.visits <+ c.places position)
    (Q := fun position _ index cs r => r.visits <+ Condition.listPlaces position index cs)
  case refused => exact fun position c limit _ _ => List.nil_sublist _
  case fault =>
    intro position c error _ _
    rw [Condition.places_eq]
    exact (List.nil_sublist _).cons_cons _
  case leaf =>
    intro position c verdict _ _
    rw [Condition.places_eq]
    exact (List.nil_sublist _).cons_cons _
  case join =>
    intro position c decisive cs _ hr ih
    rw [Condition.places_eq, (role_eq_join_iff.mp hr).2]
    exact (ih.trans (List.sublist_append_left _ _)).cons_cons _
  case negation =>
    intro position c d _ hr ih
    rw [Condition.places_eq, (role_eq_negation_iff.mp hr).2]
    exact (ih.trans (List.sublist_append_right _ _)).cons_cons _
  case nil => exact fun position decisive index => List.nil_sublist _
  case stop =>
    exact fun position decisive index c cs _ ih => ih.trans (List.sublist_append_left _ _)
  case next => exact fun position decisive index c cs _ ih ihs => ih.append ihs

end Conditions
