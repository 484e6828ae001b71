import Conditions.Text.Blank
import Mathlib.Data.List.DropRight

/-!
# Texts without the blanks around them

A text without the blanks around it begins and ends with no blank, and only blanks are missing
(`IsTrimmed`). There is exactly one such text, the one that `trimOf` gives (`isTrimmed_iff`), so
further blanks around a text change nothing (`trimOf_append`).
-/

namespace Conditions

variable {p : Char → Bool} {run rest s core : List Char}

/-! ### Runs of characters of a class -/

/-- A run of the class ends where the next character is not of the class. -/
theorem takeWhile_append_of_stop (hrun : ∀ c ∈ run, p c = true)
    (hrest : ∀ c, rest.head? = some c → p c = false) : (run ++ rest).takeWhile p = run := by
  have hstop : rest.takeWhile p = [] := by
    cases rest with
    | nil => rfl
    | cons c rest => simp [hrest c rfl]
  rw [List.takeWhile_append_of_pos hrun, hstop, List.append_nil]

theorem dropWhile_append_of_stop (hrun : ∀ c ∈ run, p c = true)
    (hrest : ∀ c, rest.head? = some c → p c = false) : (run ++ rest).dropWhile p = rest := by
  have hstop : rest.dropWhile p = rest := by
    cases rest with
    | nil => rfl
    | cons c rest => simp [hrest c rfl]
  rw [List.dropWhile_append_of_pos hrun, hstop]

/-! ### Trimmed texts -/

/-- A text is another one without the characters of a class around it. -/
structure IsTrimmed (blank : Char → Bool) (s core : List Char) : Prop where
  /-- Only characters of the class are missing, at both ends. -/
  around : ∃ before after, s = before ++ (core ++ after) ∧ (∀ c ∈ before, blank c = true) ∧
    ∀ c ∈ after, blank c = true
  /-- The text begins with none. -/
  head : ∀ c, core.head? = some c → blank c = false
  /-- The text ends with none. -/
  last : ∀ c, core.getLast? = some c → blank c = false

theorem trimOf_eq {blank : Char → Bool} (h : IsTrimmed blank s core) : trimOf blank s = core := by
  obtain ⟨⟨before, after, rfl, hbefore, hafter⟩, hhead, hlast⟩ := h
  unfold trimOf trimEndOf
  rw [List.dropWhile_append_of_pos hbefore]
  cases core with
  | nil =>
    have hnil : after.dropWhile blank = [] := List.dropWhile_eq_nil_iff.mpr hafter
    rw [List.nil_append, hnil]
    rfl
  | cons c core =>
    have hstop : (c :: core ++ after).dropWhile blank = c :: core ++ after := by
      simp [hhead c rfl]
    have hends : ∀ d, (c :: core).reverse.head? = some d → blank d = false := fun d hd =>
      hlast d (by rwa [List.head?_reverse] at hd)
    have hreversed : ∀ d ∈ after.reverse, blank d = true := fun d hd =>
      hafter d (List.mem_reverse.mp hd)
    rw [hstop, List.reverse_append, dropWhile_append_of_stop hreversed hends, List.reverse_reverse]

theorem isTrimmed_trimOf (blank : Char → Bool) (s : List Char) :
    IsTrimmed blank s (trimOf blank s) := by
  obtain ⟨t, ht⟩ : ∃ t, t = s.dropWhile blank := ⟨_, rfl⟩
  have hcore : trimOf blank s = (t.reverse.dropWhile blank).reverse := by rw [ht]; rfl
  have hsplit : t = trimOf blank s ++ (t.reverse.takeWhile blank).reverse := by
    rw [hcore, ← List.reverse_append, List.takeWhile_append_dropWhile, List.reverse_reverse]
  refine ⟨⟨s.takeWhile blank, (t.reverse.takeWhile blank).reverse, ?_, fun c => ?_, fun c hc => ?_⟩,
    fun c hc => ?_, fun c hc => ?_⟩
  · rw [← hsplit, ht, List.takeWhile_append_dropWhile]
  · exact List.mem_takeWhile_imp
  · exact List.mem_takeWhile_imp (List.mem_reverse.mp hc)
  · have hhead : t.head? = some c := by
      rw [hsplit, List.head?_append, hc]
      rfl
    have hnot := List.head?_dropWhile_not blank s
    rw [← ht, hhead] at hnot
    simpa using hnot
  · rw [hcore, List.getLast?_reverse] at hc
    have hnot := List.head?_dropWhile_not blank t.reverse
    rw [hc] at hnot
    simpa using hnot

theorem isTrimmed_iff {blank : Char → Bool} : IsTrimmed blank s core ↔ trimOf blank s = core :=
  ⟨trimOf_eq, fun h => h ▸ isTrimmed_trimOf blank s⟩

/-- Blanks around a text change nothing. -/
theorem trimOf_append {blank : Char → Bool} {before after : List Char}
    (hbefore : ∀ c ∈ before, blank c = true) (hafter : ∀ c ∈ after, blank c = true)
    (s : List Char) : trimOf blank (before ++ (s ++ after)) = trimOf blank s := by
  obtain ⟨⟨before', after', hs, hbefore', hafter'⟩, hhead, hlast⟩ := isTrimmed_trimOf blank s
  refine trimOf_eq ⟨⟨before ++ before', after' ++ after, ?_, ?_, ?_⟩, hhead, hlast⟩
  · conv_lhs => rw [hs]
    simp only [List.append_assoc]
  · exact fun c hc => (List.mem_append.mp hc).elim (hbefore c) (hbefore' c)
  · exact fun c hc => (List.mem_append.mp hc).elim (hafter' c) (hafter c)

end Conditions
