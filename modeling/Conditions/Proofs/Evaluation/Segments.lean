import Conditions.Proofs.Evaluation.Preorder

/-!
# Runs within a run

The run of a visited node is a segment of the whole run, and nothing outside of that segment stands
below the node (`segment_of_mem_visits`). So what a run says of the conditions in the list of a
visited node may be read off the run of that node alone: those visited are the first ones of the
list, and all but the last of them let the list go on (`items_visits`).
-/

namespace Conditions

open scoped List

/-- Whether a position is that of a condition in the list of the node at another. -/
def Position.isItemOf : Position → Position → Bool
  | .item _ :: above, position => above == position
  | _, _ => false

/-- The conditions of the list of a node in their places, from an index on. -/
def Condition.items (position : Position) (index : Nat) : List Condition → List Visit
  | [] => []
  | c :: cs => ⟨.item index :: position, c⟩ :: items position (index + 1) cs

namespace Evaluator

variable {e : Evaluator} {record : Record} {position : Position} {c : Condition}

theorem suffix_of_mem_visits {v : Visit} (hv : v ∈ (e.enter record position c).visits) :
    position <:+ v.position :=
  Condition.suffix_of_mem_places v ((e.visits_sublist_places record position c).subset hv)

/-- The visits of a list are those of its conditions. -/
theorem mem_visits_enterAll {decisive : Bool} {index : Nat} {cs : List Condition} :
    ∀ v ∈ (e.enterAll record position decisive index cs).visits,
      ∃ (i : Nat) (c : Condition), cs[i]? = some c ∧
        v ∈ (e.enter record (.item (index + i) :: position) c).visits := by
  apply enterAll_induction e record position decisive
    (Q := fun index cs r => ∀ v ∈ r.visits, ∃ (i : Nat) (c : Condition), cs[i]? = some c ∧
      v ∈ (e.enter record (.item (index + i) :: position) c).visits)
  case nil => simp
  case stop => exact fun index c cs _ v hv => ⟨0, c, rfl, hv⟩
  case next =>
    intro index c cs _ ih v hv
    rcases List.mem_append.mp hv with hv | hv
    · exact ⟨0, c, rfl, hv⟩
    · obtain ⟨i, d, hd, hv⟩ := ih v hv
      exact ⟨i + 1, d, hd, by rwa [Nat.add_assoc, Nat.add_comm 1 i] at hv⟩

/-! ### The run of a visited node -/

/-- The run of a node is a segment of some visits, and nothing else in them stands below it. -/
def IsSegment (e : Evaluator) (record : Record) (v : Visit) (vs : List Visit) : Prop :=
  ∃ before after, vs = before ++ (e.enter record v.position v.node).visits ++ after ∧
    ∀ w ∈ before ++ after, ¬ v.position <:+ w.position

theorem IsSegment.append_left {v : Visit} {us vs : List Visit} (h : e.IsSegment record v vs)
    (hus : ∀ w ∈ us, ¬ v.position <:+ w.position) : e.IsSegment record v (us ++ vs) := by
  obtain ⟨before, after, rfl, hout⟩ := h
  refine ⟨us ++ before, after, by simp only [List.append_assoc], fun w hw => ?_⟩
  rw [List.append_assoc, List.mem_append] at hw
  exact hw.elim (hus w) (hout w)

theorem IsSegment.append_right {v : Visit} {us vs : List Visit} (h : e.IsSegment record v vs)
    (hus : ∀ w ∈ us, ¬ v.position <:+ w.position) : e.IsSegment record v (vs ++ us) := by
  obtain ⟨before, after, rfl, hout⟩ := h
  refine ⟨before, after ++ us, by simp only [List.append_assoc], fun w hw => ?_⟩
  rw [← List.append_assoc, List.mem_append] at hw
  exact hw.elim (hout w) (hus w)

theorem isSegment_self (position : Position) (c : Condition) :
    e.IsSegment record ⟨position, c⟩ (e.enter record position c).visits :=
  ⟨[], [], by simp, by simp⟩

/-- Nothing that stands below one condition of a list stands below another. -/
theorem not_suffix_of_item_ne {v w : Visit} {i j : Nat} (hij : i ≠ j)
    (hv : .item i :: position <:+ v.position) (hw : .item j :: position <:+ w.position) :
    ¬ v.position <:+ w.position := fun h =>
  hij (Step.item.inj (step_eq_of_suffix (hv.trans h) hw))

/-- **The run of a visited node is a segment of the run**. -/
theorem segment_of_mem_visits (position : Position) (c : Condition) :
    ∀ v ∈ (e.enter record position c).visits,
      e.IsSegment record v (e.enter record position c).visits := by
  -- the node entered stands above what it makes the walk enter
  have below {s : Step} {v : Visit} (c : Condition) (position : Position)
      (hv : s :: position <:+ v.position) :
      ∀ w ∈ [(⟨position, c⟩ : Visit)], ¬ v.position <:+ w.position := by
    intro w hw h
    rw [List.mem_singleton.mp hw] at h
    exact not_cons_suffix_self s position (hv.trans h)
  apply walk_induction e record
    (P := fun position c r => ∀ v ∈ r.visits, e.IsSegment record v r.visits)
    (Q := fun position _ index cs r => ∀ v ∈ r.visits, e.IsSegment record v r.visits)
  case refused => simp
  case fault =>
    intro position c error ha hr v hv
    rw [← enter_fault ha hr, List.mem_singleton.mp hv]
    exact isSegment_self position c
  case leaf =>
    intro position c verdict ha hr v hv
    rw [← enter_leaf ha hr, List.mem_singleton.mp hv]
    exact isSegment_self position c
  case join =>
    intro position c decisive cs ha hr ih v hv
    rcases List.mem_cons.mp hv with rfl | hv
    · rw [← enter_join ha hr]
      exact isSegment_self position c
    · obtain ⟨i, d, -, hd⟩ := mem_visits_enterAll v hv
      exact (ih v hv).append_left (below c position (suffix_of_mem_visits hd))
  case negation =>
    intro position c d ha hr ih v hv
    rcases List.mem_cons.mp hv with rfl | hv
    · rw [← enter_negation ha hr]
      exact isSegment_self position c
    · exact (ih v hv).append_left (below c position (suffix_of_mem_visits hv))
  case nil => simp
  case stop => exact fun position decisive index c cs _ ih => ih
  case next =>
    intro position decisive index c cs _ ih ihs v hv
    rcases List.mem_append.mp hv with hv | hv
    · refine (ih v hv).append_right fun w hw => ?_
      obtain ⟨i, d, -, hd⟩ := mem_visits_enterAll w hw
      exact not_suffix_of_item_ne (by omega) (suffix_of_mem_visits hv) (suffix_of_mem_visits hd)
    · refine (ihs v hv).append_left fun w hw => ?_
      obtain ⟨i, d, -, hd⟩ := mem_visits_enterAll v hv
      exact not_suffix_of_item_ne (by omega) (suffix_of_mem_visits hd) (suffix_of_mem_visits hw)

theorem nodup_visits (e : Evaluator) (record : Record) (position : Position) (c : Condition) :
    ((e.enter record position c).visits.map (·.position)).Nodup :=
  ((e.visits_sublist_places record position c).map _).nodup (Condition.nodup_places position c)

/-! ### The conditions visited in a list -/

theorem isItemOf_iff {p : Position} :
    p.isItemOf position = true ↔ ∃ i, p = .item i :: position := by
  unfold Position.isItemOf
  split
  · simp
  · rename_i hne
    simp only [Bool.false_eq_true, false_iff, not_exists]
    exact fun i hi => hne i position hi

theorem suffix_of_isItemOf {p : Position} (h : p.isItemOf position = true) : position <:+ p := by
  obtain ⟨i, rfl⟩ := isItemOf_iff.mp h
  exact List.suffix_cons _ _

/-- Of the nodes visited from a condition in a list, only the condition itself is in the list. -/
theorem filter_visits_item {index : Nat} (ha : e.Admits (.item index :: position)) :
    (e.enter record (.item index :: position) c).visits.filter (·.position.isItemOf position) =
      [⟨.item index :: position, c⟩] := by
  obtain ⟨vs, hvs⟩ : ∃ vs, (e.enter record (.item index :: position) c).visits =
      ⟨.item index :: position, c⟩ :: vs := visits_enter_eq_cons ha
  have hnd := e.nodup_visits record (.item index :: position) c
  rw [hvs, List.filter_cons_of_pos (p := fun v : Visit => v.position.isItemOf position)
    (isItemOf_iff.mpr ⟨index, rfl⟩), List.filter_eq_nil_iff.mpr]
  intro v hv hitem
  obtain ⟨i, hi⟩ := isItemOf_iff.mp hitem
  have hs : .item index :: position <:+ v.position :=
    suffix_of_mem_visits (hvs ▸ List.mem_cons_of_mem _ hv)
  rw [hi] at hs
  rw [hvs, List.map_cons, List.nodup_cons] at hnd
  exact hnd.1 (List.mem_map.mpr ⟨v, hv, hi.trans (hs.eq_of_length rfl).symm⟩)

/-- The conditions visited in the rest of a list are the first ones of it, and all but the last have
the verdict that lets the list go on. -/
theorem items_enterAll (position : Position) (decisive : Bool) (index : Nat) (cs : List Condition) :
    let visited := (e.enterAll record position decisive index cs).visits.filter
      (·.position.isItemOf position)
    visited <+: Condition.items position index cs ∧
      ∀ v ∈ visited.dropLast, (e.enter record v.position v.node).outcome = .ok !decisive := by
  apply enterAll_induction e record position decisive (Q := fun index cs r =>
    r.visits.filter (·.position.isItemOf position) <+: Condition.items position index cs ∧
      ∀ v ∈ (r.visits.filter (·.position.isItemOf position)).dropLast,
        (e.enter record v.position v.node).outcome = .ok !decisive)
  case nil => exact fun index => ⟨List.nil_prefix, by simp⟩
  case stop =>
    intro index c cs _
    rcases e.admits_or_refuses (.item index :: position) with ha | ⟨limit, hl, hle⟩
    · rw [filter_visits_item ha]
      exact ⟨List.cons_prefix_cons.mpr ⟨rfl, List.nil_prefix⟩, by simp⟩
    · rw [enter_refused hl hle]
      exact ⟨List.nil_prefix, by simp⟩
  case next =>
    intro index c cs ho ih
    have ha : e.Admits (.item index :: position) := by
      rcases e.admits_or_refuses (.item index :: position) with ha | ⟨limit, hl, hle⟩
      · exact ha
      · rw [enter_refused hl hle] at ho
        cases ho
    rw [Run.visits_after, List.filter_append, filter_visits_item ha]
    refine ⟨List.cons_prefix_cons.mpr ⟨rfl, ih.1⟩, fun v hv => ?_⟩
    rw [List.singleton_append] at hv
    cases hrest : (e.enterAll record position decisive (index + 1) cs).visits.filter
        (·.position.isItemOf position) with
    | nil => simp [hrest] at hv
    | cons w ws =>
      rw [hrest, List.dropLast_cons_cons, List.mem_cons] at hv
      rcases hv with rfl | hv
      · exact ho
      · exact ih.2 v (hrest ▸ hv)

/-- **The conditions visited in a list are the first ones of it**, and all but the last have the
verdict that lets the list go on. -/
theorem items_visits {u : Visit} {decisive : Bool} {cs : List Condition}
    (hu : u ∈ (e.enter record position c).visits) (h : e.role record u.node = .join decisive cs) :
    let visited := (e.enter record position c).visits.filter (·.position.isItemOf u.position)
    visited <+: Condition.items u.position 0 cs ∧
      ∀ v ∈ visited.dropLast, (e.enter record v.position v.node).outcome = .ok !decisive := by
  have hown : (e.enter record position c).visits.filter (·.position.isItemOf u.position) =
      (e.enter record u.position u.node).visits.filter (·.position.isItemOf u.position) := by
    obtain ⟨before, after, hseg, hout⟩ := segment_of_mem_visits position c u hu
    have hnil (ws : List Visit) (hws : ∀ w ∈ ws, w ∈ before ++ after) :
        ws.filter (·.position.isItemOf u.position) = [] :=
      List.filter_eq_nil_iff.mpr fun w hw hitem => hout w (hws w hw) (suffix_of_isItemOf hitem)
    rw [hseg, List.filter_append, List.filter_append,
      hnil before fun w hw => List.mem_append_left after hw,
      hnil after fun w hw => List.mem_append_right before hw, List.nil_append, List.append_nil]
  rw [hown]
  rcases e.admits_or_refuses u.position with ha | ⟨limit, hl, hle⟩
  · have hself : ¬ u.position.isItemOf u.position = true := fun hitem => by
      obtain ⟨i, hi⟩ := isItemOf_iff.mp hitem
      exact not_cons_suffix_self (.item i) u.position (hi ▸ List.suffix_rfl)
    rw [enter_join ha h, Run.visits_after, List.singleton_append,
      List.filter_cons_of_neg (p := fun v : Visit => v.position.isItemOf u.position) hself]
    exact items_enterAll u.position decisive 0 cs
  · rw [enter_refused hl hle]
    exact ⟨List.nil_prefix, by simp⟩

end Evaluator

end Conditions
