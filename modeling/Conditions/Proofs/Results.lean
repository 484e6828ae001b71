import Mathlib.Data.List.Forall2

/-!
# Results that may be errors

An operation after another succeeds if both do (`bind_eq_ok_iff`), and one on each element of a list
if it does on each (`mapM_eq_ok_iff`), which relates the elements to what is made of them. If the
second fails as it does whatever the first gives, the error of both is the first one
(`errorOf?_bind`). What is said of an operation that need not give anything is said of whatever it
gives (`Ensures`), and is proved along its steps.
-/

namespace Conditions

variable {ε ε' α β : Type} {P : α → Prop} {Q : β → Prop}

theorem ok_bind (a : α) (f : α → Except ε β) : (Except.ok a >>= f) = f a := rfl

/-- An operation after another succeeds if both do. -/
theorem bind_eq_ok_iff {x : Except ε α} {f : α → Except ε β} {b : β} :
    x >>= f = .ok b ↔ ∃ a, x = .ok a ∧ f a = .ok b := by
  cases x with
  | error error => simp [bind, Except.bind]
  | ok a => simp [bind, Except.bind]

/-- A result that is given although its error is forgotten. -/
theorem toOption_eq_some_iff {x : Except ε α} {a : α} : x.toOption = some a ↔ x = .ok a := by
  cases x with
  | error error => exact ⟨nofun, nofun⟩
  | ok a' => exact ⟨fun h => congrArg _ (Option.some.inj h), fun h => congrArg _ h⟩

/-- Something is made of the elements of a list if it is made of each. -/
theorem mapM_eq_ok_iff {f : α → Except ε β} {xs : List α} {ys : List β} :
    xs.mapM f = .ok ys ↔ List.Forall₂ (fun x y => f x = .ok y) xs ys := by
  induction xs generalizing ys with
  | nil =>
    rw [List.forall₂_nil_left_iff]
    exact ⟨fun h => (Except.ok.inj h).symm, fun h => h ▸ rfl⟩
  | cons x xs ih =>
    simp only [List.mapM_cons, bind_eq_ok_iff, ih, List.forall₂_cons_left_iff]
    constructor
    · rintro ⟨y, hy, ys, hys, ⟨⟩⟩
      exact ⟨y, ys, hy, hys, rfl⟩
    · rintro ⟨y, ys, hy, hys, rfl⟩
      exact ⟨y, hy, ys, hys, rfl⟩

/-! ### Lists whose elements are related -/

section Related

variable {γ : Type} {R : α → β → Prop} {as : List α} {bs : List β}

theorem exists_of_mem_left (h : List.Forall₂ R as bs) {a : α} (ha : a ∈ as) :
    ∃ b ∈ bs, R a b := by
  induction h with
  | nil => cases ha
  | @cons first b as bs hR _ ih =>
    rcases List.mem_cons.mp ha with rfl | ha
    · exact ⟨b, List.mem_cons_self, hR⟩
    · obtain ⟨b', hb', hR'⟩ := ih ha
      exact ⟨b', List.mem_cons_of_mem b hb', hR'⟩

theorem exists_of_mem_right (h : List.Forall₂ R as bs) {b : β} (hb : b ∈ bs) :
    ∃ a ∈ as, R a b :=
  exists_of_mem_left h.flip hb

/-- What is found first in a list is related to what is found first in the other. -/
theorem find?_related {p : α → Bool} {q : β → Bool} (hpq : ∀ a b, R a b → p a = q b)
    (h : List.Forall₂ R as bs) {a : α} (ha : as.find? p = some a) :
    ∃ b, bs.find? q = some b ∧ R a b := by
  induction h with
  | nil => cases ha
  | @cons first other as bs hR _ ih =>
    rw [List.find?_cons] at ha ⊢
    rw [hpq first other hR] at ha
    split at ha
    · cases ha
      exact ⟨other, rfl, hR⟩
    · exact ih ha

theorem forall₂_trans {S : β → γ → Prop} {T : α → γ → Prop} (hT : ∀ a b c, R a b → S b c → T a c)
    (h : List.Forall₂ R as bs) {cs : List γ} (h' : List.Forall₂ S bs cs) :
    List.Forall₂ T as cs := by
  induction h generalizing cs with
  | nil =>
    cases h'
    exact .nil
  | cons hR _ ih =>
    cases h' with
    | cons hS hrest => exact .cons (hT _ _ _ hR hS) (ih hrest)

/-- Where elements are related through others, these others make up a list between. -/
theorem exists_forall₂_between {S : β → γ → Prop} {cs : List γ}
    (h : List.Forall₂ (fun a c => ∃ b, R a b ∧ S b c) as cs) :
    ∃ bs, List.Forall₂ R as bs ∧ List.Forall₂ S bs cs := by
  induction h with
  | nil => exact ⟨[], .nil, .nil⟩
  | cons hb _ ih =>
    obtain ⟨b, hR, hS⟩ := hb
    obtain ⟨bs, hRs, hSs⟩ := ih
    exact ⟨b :: bs, .cons hR hRs, .cons hS hSs⟩

/-- Lists whose elements are related are those of a list of related pairs. -/
theorem forall₂_iff_exists_pairs : List.Forall₂ R as bs ↔
    ∃ pairs : List (α × β), pairs.map (·.1) = as ∧ pairs.map (·.2) = bs ∧
      ∀ p ∈ pairs, R p.1 p.2 := by
  constructor
  · intro h
    induction h with
    | nil => exact ⟨[], rfl, rfl, List.forall_mem_nil _⟩
    | @cons a b _ _ hR _ ih =>
      obtain ⟨pairs, rfl, rfl, hpairs⟩ := ih
      exact ⟨(a, b) :: pairs, rfl, rfl, List.forall_mem_cons.mpr ⟨hR, hpairs⟩⟩
  · rintro ⟨pairs, rfl, rfl, hpairs⟩
    rw [List.forall₂_map_left_iff, List.forall₂_map_right_iff, List.forall₂_same]
    exact hpairs

end Related

/-! ### Errors -/

/-- The error of a result, if it is one. -/
def errorOf? : Except ε α → Option ε
  | .ok _ => none
  | .error error => some error

theorem errorOf?_eq_some_iff {x : Except ε α} {error : ε} :
    errorOf? x = some error ↔ x = .error error := by
  cases x <;> simp [errorOf?]

theorem errorOf?_eq_none_iff {x : Except ε α} : errorOf? x = none ↔ ∃ a, x = .ok a := by
  cases x <;> simp [errorOf?]

/-- The first error of two steps, of which the second fails as it does whatever the first gives. -/
theorem errorOf?_bind {x : Except ε α} {f : α → Except ε β} {rest : Option ε}
    (h : ∀ a, errorOf? (f a) = rest) : errorOf? (x >>= f) = (errorOf? x).or rest := by
  cases x with
  | error error => rfl
  | ok a => exact h a

theorem mapError_eq_ok_iff {x : Except ε α} {f : ε → ε'} {a : α} :
    x.mapError f = .ok a ↔ x = .ok a := by
  cases x with
  | error cause => exact ⟨nofun, nofun⟩
  | ok a' =>
    constructor <;>
      · rintro ⟨⟩
        rfl

theorem mapError_eq_error_iff {x : Except ε α} {f : ε → ε'} {error : ε'} :
    x.mapError f = .error error ↔ ∃ cause, x = .error cause ∧ f cause = error := by
  cases x with
  | error cause =>
    constructor
    · rintro ⟨⟩
      exact ⟨cause, rfl, rfl⟩
    · rintro ⟨_, ⟨⟩, rfl⟩
      rfl
  | ok a => exact ⟨nofun, nofun⟩

/-! ### What operations ensure -/

/-- Whatever an operation gives has a property; it may give nothing. -/
def Ensures {ε α : Type} (x : Except ε α) (P : α → Prop) : Prop := ∀ a, x = .ok a → P a

theorem ensures_ok {a : α} (h : P a) : Ensures (.ok a : Except ε α) P := by
  rintro _ ⟨⟩
  exact h

theorem ensures_error (error : ε) : Ensures (.error error : Except ε α) P := nofun

theorem ensures_true (x : Except ε α) : Ensures x fun _ => True := fun _ _ => trivial

theorem Ensures.bind {x : Except ε α} {f : α → Except ε β} (hx : Ensures x P)
    (hf : ∀ a, P a → Ensures (f a) Q) : Ensures (x >>= f) Q := by
  cases x with
  | error error => exact ensures_error error
  | ok a => exact hf a (hx a rfl)

theorem Ensures.map {x : Except ε α} {f : α → β} (h : Ensures x fun a => Q (f a)) :
    Ensures (x.map f) Q := by
  cases x with
  | error error => exact ensures_error error
  | ok a => exact ensures_ok (h a rfl)

theorem Ensures.mapError {x : Except ε α} (h : Ensures x P) (f : ε → ε') :
    Ensures (x.mapError f) P := fun a ha => h a (mapError_eq_ok_iff.mp ha)

/-- A result that is given once a check is passed. -/
theorem ensures_checked {a : α} (check : Except ε Unit) (h : P a) :
    Ensures (check >>= fun _ => .ok a) P :=
  (ensures_true check).bind fun _ _ => ensures_ok h

/-- What is made of the elements of a list has a property if what is made of each has. -/
theorem ensures_mapM {f : α → Except ε β} {xs : List α} (h : ∀ x ∈ xs, Ensures (f x) Q) :
    Ensures (xs.mapM f) fun ys => ∀ y ∈ ys, Q y := by
  induction xs with
  | nil => exact ensures_ok fun _ hy => by cases hy
  | cons x xs ih =>
    obtain ⟨hx, hxs⟩ := List.forall_mem_cons.mp h
    rw [List.mapM_cons]
    refine hx.bind fun y hy => (ih hxs).bind fun ys hys => ensures_ok ?_
    exact List.forall_mem_cons.mpr ⟨hy, hys⟩

end Conditions
