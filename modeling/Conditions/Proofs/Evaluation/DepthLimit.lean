import Conditions.Proofs.Evaluation.Faults
import Mathlib.Data.List.TakeWhile

/-!
# The limit of depth

A run with a limit of depth is the run without one, cut off before the first node that lies too
deep (`enter_limitedTo`). So a limit changes nothing of a run that stays above it, whatever the tree
holds below the nodes entered, and otherwise the nodes visited are exactly those that the free run
visits first.

A free run never goes deeper than the tree (`depth_le_of_mem_visits`), and it goes down one level at
a time, so the node that a limit refuses lies one level below it (`depth_eq_of_first_deep`).
-/

namespace Conditions

/-- The run that a limit of depth makes of a run without one. -/
def Run.cutAt (limit : Nat) (r : Run) : Run :=
  if ∀ v ∈ r.visits, v.depth ≤ limit then r
  else ⟨.error (.tooDeep limit), r.visits.takeWhile (·.depth ≤ limit)⟩

/-- The evaluator with another limit of depth, or none. -/
def Evaluator.withMaxDepth (e : Evaluator) (maxDepth : Option Nat) : Evaluator :=
  { e with maxDepth := maxDepth }

/-! ### Cutting a run off -/

namespace Run

variable {limit : Nat} {r : Run} {vs : List Visit}

theorem cutAt_of_shallow (h : ∀ v ∈ r.visits, v.depth ≤ limit) : r.cutAt limit = r := if_pos h

theorem cutAt_of_deep {v : Visit} (hv : v ∈ r.visits) (h : limit < v.depth) :
    r.cutAt limit = ⟨.error (.tooDeep limit), r.visits.takeWhile (·.depth ≤ limit)⟩ :=
  if_neg fun hs => Nat.not_lt.mpr (hs v hv) h

/-- The visits of a run either all stay above the limit or split at the first that does not. -/
theorem shallow_or_deep (limit : Nat) (r : Run) :
    (∀ v ∈ r.visits, v.depth ≤ limit) ∨ ∃ v ∈ r.visits, limit < v.depth := by
  by_cases h : ∀ v ∈ r.visits, v.depth ≤ limit
  · exact .inl h
  · simp only [not_forall, Nat.not_le] at h
    obtain ⟨v, hv, hlt⟩ := h
    exact .inr ⟨v, hv, hlt⟩

/-- A run cut off ends before the first node that lies too deep. -/
theorem exists_first_deep {w : Visit} (hw : w ∈ r.visits) (h : limit < w.depth) :
    ∃ before v after, r.visits = before ++ v :: after ∧ (∀ u ∈ before, u.depth ≤ limit) ∧
      limit < v.depth ∧ r.cutAt limit = ⟨.error (.tooDeep limit), before⟩ := by
  have hsplit := List.takeWhile_append_dropWhile (p := fun v : Visit => v.depth ≤ limit)
    (l := r.visits)
  cases hd : r.visits.dropWhile (fun v => v.depth ≤ limit) with
  | nil =>
    rw [List.dropWhile_eq_nil_iff] at hd
    exact absurd (of_decide_eq_true (hd w hw)) (Nat.not_le.mpr h)
  | cons v after =>
    refine ⟨_, v, after, (hd ▸ hsplit).symm, fun u hu => ?_, ?_, cutAt_of_deep hw h⟩
    · have hle := List.mem_takeWhile_imp hu
      simpa using hle
    · have hv := List.head?_dropWhile_not (fun v : Visit => decide (v.depth ≤ limit)) r.visits
      rw [hd] at hv
      simpa using hv

theorem cutAt_after_shallow (h : ∀ v ∈ vs, v.depth ≤ limit) :
    (after vs r).cutAt limit = after vs (r.cutAt limit) := by
  rcases shallow_or_deep limit r with hr | ⟨v, hv, hlt⟩
  · rw [cutAt_of_shallow hr, cutAt_of_shallow]
    intro v hv
    rcases List.mem_append.mp hv with hv | hv
    · exact h v hv
    · exact hr v hv
  · rw [cutAt_of_deep hv hlt, cutAt_of_deep (List.mem_append_right vs hv) hlt, visits_after,
      List.takeWhile_append_of_pos (by simpa using h)]
    rfl

theorem cutAt_after_deep {v : Visit} (hv : v ∈ vs) (h : limit < v.depth) :
    (after vs r).cutAt limit =
      ⟨.error (.tooDeep limit), vs.takeWhile (·.depth ≤ limit)⟩ := by
  rw [cutAt_of_deep (List.mem_append_left r.visits hv) h, visits_after, List.takeWhile_append,
    if_neg]
  intro hl
  have hvs := (List.takeWhile_prefix fun v : Visit => v.depth ≤ limit).eq_of_length hl
  have hle := List.mem_takeWhile_imp (hvs ▸ hv)
  exact Nat.not_lt.mpr (of_decide_eq_true hle) h

theorem cutAt_negate : r.negate.cutAt limit = (r.cutAt limit).negate := by
  rcases shallow_or_deep limit r with hr | ⟨v, hv, hlt⟩
  · rw [cutAt_of_shallow hr, cutAt_of_shallow (by simpa using hr)]
  · rw [cutAt_of_deep hv hlt, cutAt_of_deep (r := r.negate) hv hlt]
    rfl

theorem cutAt_outcome_eq_ok {verdict : Bool} (h : (r.cutAt limit).outcome = .ok verdict) :
    (∀ v ∈ r.visits, v.depth ≤ limit) ∧ r.outcome = .ok verdict := by
  rcases shallow_or_deep limit r with hr | ⟨v, hv, hlt⟩
  · rw [cutAt_of_shallow hr] at h
    exact ⟨hr, h⟩
  · rw [cutAt_of_deep hv hlt] at h
    cases h

end Run

namespace Evaluator

variable {e : Evaluator} {record : Record}

/-! ### The run with a limit and the run without -/

theorem withMaxDepth_eq_self {m : Option Nat} (h : e.maxDepth = m) : e.withMaxDepth m = e := by
  subst h
  rfl

theorem admits_withMaxDepth_none (position : Position) : (e.withMaxDepth none).Admits position := by
  rintro limit ⟨⟩

theorem admits_withMaxDepth_some {limit : Nat} {position : Position} (h : position.length < limit) :
    (e.withMaxDepth (some limit)).Admits position := by
  rintro _ ⟨⟩
  exact h

/-- Below the limit a node is refused, where the run without one visits it first. -/
theorem enter_limitedTo_of_le {limit : Nat} {position : Position} {c : Condition}
    (h : limit ≤ position.length) :
    (e.withMaxDepth (some limit)).enter record position c =
      ((e.withMaxDepth none).enter record position c).cutAt limit := by
  obtain ⟨vs, hvs⟩ : ∃ vs, ((e.withMaxDepth none).enter record position c).visits =
      ⟨position, c⟩ :: vs := visits_enter_eq_cons (admits_withMaxDepth_none position)
  have hlt : limit < Visit.depth ⟨position, c⟩ := Nat.lt_succ_of_le h
  rw [enter_refused rfl h, Run.cutAt_of_deep (hvs ▸ List.mem_cons_self) hlt, hvs,
    List.takeWhile_cons_of_neg (by simpa using hlt)]
  rfl

/-- **A limit cuts a run off**, and does nothing else. -/
theorem enter_limitedTo (limit : Nat) (position : Position) (c : Condition) :
    (e.withMaxDepth (some limit)).enter record position c =
      ((e.withMaxDepth none).enter record position c).cutAt limit := by
  have shallow (position : Position) (c : Condition) (h : position.length < limit) :
      ∀ v ∈ [(⟨position, c⟩ : Visit)], v.depth ≤ limit := by
    simpa [Visit.depth] using Nat.succ_le_of_lt h
  have admitted {position : Position} {c : Condition}
      (ih : position.length < limit → (e.withMaxDepth (some limit)).enter record position c =
        ((e.withMaxDepth none).enter record position c).cutAt limit) :
      (e.withMaxDepth (some limit)).enter record position c =
        ((e.withMaxDepth none).enter record position c).cutAt limit := by
    rcases Nat.lt_or_ge position.length limit with hlt | hge
    · exact ih hlt
    · exact enter_limitedTo_of_le hge
  -- the induction is over the free run, at positions that the limit admits
  apply admitted
  apply walk_induction (e.withMaxDepth none) record
    (P := fun position c r => position.length < limit →
      (e.withMaxDepth (some limit)).enter record position c = r.cutAt limit)
    (Q := fun position decisive index cs r =>
      (e.withMaxDepth (some limit)).enterAll record position decisive index cs = r.cutAt limit)
  case refused => intro position c l hl; cases hl
  case fault =>
    intro position c error _ hr h
    rw [enter_fault (admits_withMaxDepth_some h) hr, Run.cutAt_of_shallow (shallow position c h)]
  case leaf =>
    intro position c verdict _ hr h
    rw [enter_leaf (admits_withMaxDepth_some h) hr, Run.cutAt_of_shallow (shallow position c h)]
  case join =>
    intro position c decisive cs _ hr ih h
    rw [enter_join (admits_withMaxDepth_some h) hr, ih,
      Run.cutAt_after_shallow (shallow position c h)]
  case negation =>
    intro position c d _ hr ih h
    rw [enter_negation (admits_withMaxDepth_some h) hr, admitted ih,
      Run.cutAt_after_shallow (shallow position c h), Run.cutAt_negate]
  case nil =>
    intro position decisive index
    rw [enterAll_nil, Run.cutAt_of_shallow (by simp)]
  case stop =>
    intro position decisive index c cs ho ih
    rw [enterAll_stop, admitted ih]
    rw [admitted ih]
    exact fun hcut => ho (Run.cutAt_outcome_eq_ok hcut).2
  case next =>
    intro position decisive index c cs ho ih ihs
    rcases Run.shallow_or_deep limit
        ((e.withMaxDepth none).enter record (.item index :: position) c) with hs | ⟨v, hv, hd⟩
    · rw [Run.cutAt_after_shallow hs, ← ihs, enterAll_next, admitted ih, Run.cutAt_of_shallow hs]
      rw [admitted ih, Run.cutAt_of_shallow hs, ho]
    · rw [Run.cutAt_after_deep hv hd, ← Run.cutAt_of_deep hv hd, enterAll_stop, admitted ih]
      rw [admitted ih, Run.cutAt_of_deep hv hd]
      simp

/-- A free run first goes below a limit by one level. -/
theorem depth_eq_of_first_deep {c : Condition} {limit : Nat} {before after : List Visit} {v : Visit}
    (h : ((e.withMaxDepth none).run record c).visits = before ++ v :: after)
    (hb : ∀ u ∈ before, u.depth ≤ limit) (hv : limit < v.depth) : v.depth = limit + 1 := by
  rcases opened_before [] c before v after h with rfl | ⟨u, hu, huv⟩
  · have : Visit.depth ⟨[], c⟩ = 1 := rfl
    omega
  · have hd := huv.depth_eq
    have hle := hb u hu
    omega

/-- A run with a limit is the free run cut off there. -/
theorem run_eq_cutAt {c : Condition} {limit : Nat} (h : e.maxDepth = some limit) :
    e.run record c = ((e.withMaxDepth none).run record c).cutAt limit := by
  rw [← withMaxDepth_eq_self h]
  exact enter_limitedTo limit [] c

/-- A condition within the limit of depth is never too deep. -/
theorem outcome_ne_tooDeep {c : Condition} (h : ∀ limit, e.maxDepth = some limit → c.depth ≤ limit)
    (other : Nat) : (e.run record c).outcome ≠ .error (.tooDeep other) := by
  intro ho
  have hm := maxDepth_of_tooDeep ho
  have hs : ∀ v ∈ ((e.withMaxDepth none).run record c).visits, v.depth ≤ other := fun v hv =>
    (depth_le_of_mem_visits [] c v hv).trans (by simpa using h other hm)
  rw [run_eq_cutAt hm, Run.cutAt_of_shallow hs] at ho
  cases maxDepth_of_tooDeep ho

/-- **The limit of depth is exact**. A run with a limit is the run without one, if that one enters
no node below the limit; otherwise it ends as too deep, after the nodes that the free run visits
before it first enters a node one level below the limit. So a limit that the tree stays within never
shows, and raising a limit changes no run but one that was too deep. -/
theorem run_withMaxDepth (e : Evaluator) (record : Record) (c : Condition) (limit : Nat) :
    ((∀ v ∈ ((e.withMaxDepth none).run record c).visits, v.depth ≤ limit) →
      (e.withMaxDepth (some limit)).run record c = (e.withMaxDepth none).run record c) ∧
    ((∃ v ∈ ((e.withMaxDepth none).run record c).visits, limit < v.depth) →
      ((e.withMaxDepth (some limit)).run record c).outcome = .error (.tooDeep limit) ∧
      ∃ before v after, ((e.withMaxDepth none).run record c).visits = before ++ v :: after ∧
        (∀ u ∈ before, u.depth ≤ limit) ∧ v.depth = limit + 1 ∧
        ((e.withMaxDepth (some limit)).run record c).visits = before) ∧
    (c.depth ≤ limit → ∀ other,
      ((e.withMaxDepth (some limit)).run record c).outcome ≠ .error (.tooDeep other)) ∧
    (∀ higher, limit ≤ higher →
      ((e.withMaxDepth (some limit)).run record c).outcome ≠ .error (.tooDeep limit) →
      (e.withMaxDepth (some higher)).run record c =
        (e.withMaxDepth (some limit)).run record c) := by
  have hcut : (e.withMaxDepth (some limit)).run record c =
      ((e.withMaxDepth none).run record c).cutAt limit := run_eq_cutAt rfl
  refine ⟨fun hs => ?_, fun ⟨w, hw, hdeep⟩ => ?_, fun hc => outcome_ne_tooDeep ?_,
    fun higher hle ho => ?_⟩
  · rw [hcut, Run.cutAt_of_shallow hs]
  · obtain ⟨before, v, after, hvs, hb, hv, hend⟩ := Run.exists_first_deep hw hdeep
    rw [hcut, hend]
    exact ⟨rfl, before, v, after, hvs, hb, depth_eq_of_first_deep hvs hb hv, rfl⟩
  · rintro _ ⟨⟩
    exact hc
  · rcases Run.shallow_or_deep limit ((e.withMaxDepth none).run record c) with hs | ⟨w, hw, hdeep⟩
    · have hs' : ∀ v ∈ ((e.withMaxDepth none).run record c).visits, v.depth ≤ higher := fun v hv =>
        (hs v hv).trans hle
      rw [hcut, Run.cutAt_of_shallow hs, ← Run.cutAt_of_shallow hs']
      exact run_eq_cutAt rfl
    · rw [hcut, Run.cutAt_of_deep hw hdeep] at ho
      exact absurd rfl ho

end Evaluator

end Conditions
