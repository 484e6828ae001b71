import Conditions.Proofs.Condition.RoundTrip
import Conditions.Proofs.Json.Scalars

/-!
# Reading the members of a condition

The reader of a condition takes the members of an object one by one, in whatever order they come.
Each member changes one part of the condition and no other (`agreeOn_of_readPart`), and no part is
changed twice. So what is read has from each member the part that it is for
(`of_readMembers_member`), and an object in which two members are for one part is not read
(`pairwise_of_readMembers`). If every member is read as the part of one condition, the condition is
read, whatever the order (`readMembers_carried`).
-/

namespace Conditions.Condition

open Json (Tree Fault Member MemberRead nesting)

variable {c d : Condition} {part : Part} {room : Nat}

/-! ### Parts -/

/-- Two conditions have the same part. -/
def AgreeOn : Part → Condition → Condition → Prop
  | .op, c, d => c.op = d.op
  | .property, c, d => c.property = d.property
  | .value, c, d => c.value = d.value
  | .conditions, c, d => c.conditions = d.conditions
  | .condition, c, d => c.condition = d.condition

theorem AgreeOn.refl (part : Part) (c : Condition) : AgreeOn part c c := by
  cases part <;> rfl

theorem AgreeOn.trans {e : Condition} (h : AgreeOn part c d) (h' : AgreeOn part d e) :
    AgreeOn part c e := by
  cases part <;> exact Eq.trans h h'

/-- Conditions that agree on all parts are the same. -/
theorem eq_of_agreeOn (h : ∀ part, AgreeOn part c d) : c = d := by
  obtain ⟨op, property, value, conditions, condition⟩ := c
  obtain ⟨op', property', value', conditions', condition'⟩ := d
  obtain rfl : op = op' := h .op
  obtain rfl : property = property' := h .property
  obtain rfl : value = value' := h .value
  obtain rfl : conditions = conditions' := h .conditions
  obtain rfl : condition = condition' := h .condition
  rfl

/-- A condition with a part of another one. -/
def copy (c d : Condition) : Part → Condition
  | .op => { d with op := c.op }
  | .property => { d with property := c.property }
  | .value => { d with value := c.value }
  | .conditions => { d with conditions := c.conditions }
  | .condition => { d with condition := c.condition }

theorem agreeOn_copy (c d : Condition) (part : Part) : AgreeOn part (copy c d part) c := by
  cases part <;> rfl

theorem AgreeOn.copy (h : AgreeOn part d c) (other : Part) : AgreeOn part (copy c d other) c := by
  cases other <;> cases part <;> first | exact h | rfl

/-- Copying parts leaves what agrees, and makes the parts that are copied agree. -/
theorem agreeOn_foldl_copy {parts : List Part} (h : part ∈ parts ∨ AgreeOn part d c) :
    AgreeOn part (parts.foldl (copy c) d) c := by
  induction parts generalizing d with
  | nil => exact h.resolve_left List.not_mem_nil
  | cons other parts ih =>
    refine ih ?_
    rcases h with h | h
    · rcases List.mem_cons.mp h with rfl | h
      · exact .inr (agreeOn_copy c d part)
      · exact .inl h
    · exact .inr (h.copy other)

/-- A condition lacks a part. The empty token is as good as none. -/
def Lacks (c : Condition) : Part → Prop
  | .op => c.op = ""
  | .property => c.property = none
  | .value => c.value = none
  | .conditions => c.conditions = none
  | .condition => c.condition = none

theorem Lacks.agreeOn (h : c.Lacks part) : AgreeOn part (ofToken "") c := by
  cases part <;> exact h.symm

/-- How deep lists and objects are nested in what is written for a part. -/
def partNesting (c : Condition) : Part → Nat
  | .conditions => valueNesting (listToJson? c.conditions)
  | .condition => valueNesting (optionToJson c.condition)
  | .op | .property | .value => 0

theorem Lacks.partNesting_eq (h : c.Lacks part) : c.partNesting part = 0 := by
  cases part with
  | op | property | value => rfl
  | conditions =>
    rw [partNesting, show c.conditions = none from h]
    rfl
  | condition =>
    rw [partNesting, show c.condition = none from h]
    rfl

theorem nesting_toJson_le_iff :
    nesting c.toJson ≤ room + 1 ↔ ∀ part, c.partNesting part ≤ room := by
  rw [nesting_toJson, Nat.add_le_add_iff_right, Nat.max_le]
  refine ⟨fun ⟨hlist, hone⟩ part => ?_, fun h => ⟨h .conditions, h .condition⟩⟩
  cases part with
  | op | property | value => exact Nat.zero_le _
  | conditions => exact hlist
  | condition => exact hone

/-! ### One member -/

/-- The name of a part. -/
def Part.name : Part → String
  | .op => "op"
  | .property => "property"
  | .value => "value"
  | .conditions => "conditions"
  | .condition => "condition"

/-- A member is for a part, by its name. The token goes by two names. -/
def IsFor (m : Member) (part : Part) : Prop :=
  m.IsNamed part.name ∨ part = .op ∧ m.IsNamed "operator"

theorem IsFor.exists_lookup {m : Member} (h : IsFor m part) :
    ∃ name, m.IsNamed name ∧ partNames.lookup name = some part := by
  rcases h with h | ⟨rfl, h⟩
  · exact ⟨part.name, h, by cases part <;> rfl⟩
  · exact ⟨"operator", h, rfl⟩

/-- What a part is read as changes that part alone, and to one thing whatever it was. -/
theorem agreeOn_of_readPart {tree : Tree} {change : Condition → Condition}
    (h : readPart room part tree = .ok change) (c d : Condition) :
    AgreeOn part (change c) (change d) ∧
      ∀ other, other ≠ part → AgreeOn other (change c) c := by
  cases part <;> obtain ⟨found, -, hchange⟩ := bind_eq_ok_iff.mp h <;> cases hchange <;>
    refine ⟨rfl, fun other hother => ?_⟩ <;> cases other <;> first | rfl | exact absurd rfl hother

/-! ### All members -/

section Read

variable {V : Member → Tree → Prop} {m : Member} {members : List Member} {seen : List Part}
  {start : Condition} {trees : List (Tree × Tree)}

/-- What a member is for, if the members of an object are read from it on. -/
theorem readMembers_cons_eq_ok {tree : Tree × Tree}
    (h : Tree.readMembers partNames (readPart room) seen start (tree :: trees) = .ok d) :
    ∃ name, tree.1.name = .ok name ∧
      (partNames.lookup name = none ∧
          Tree.readMembers partNames (readPart room) seen start trees = .ok d ∨
        ∃ part change, partNames.lookup name = some part ∧ part ∉ seen ∧
          readPart room part tree.2 = .ok change ∧
          Tree.readMembers partNames (readPart room) (part :: seen) (change start) trees =
            .ok d) := by
  rw [Tree.readMembers] at h
  obtain ⟨name, hname, h⟩ := bind_eq_ok_iff.mp h
  refine ⟨name, hname, ?_⟩
  split at h
  · next hlookup =>
    obtain ⟨-, -, hrest⟩ := bind_eq_ok_iff.mp h
    exact .inl ⟨hlookup, hrest⟩
  · next part hlookup =>
    split at h
    · cases h
    · next hseen =>
      obtain ⟨change, hchange, hrest⟩ := bind_eq_ok_iff.mp h
      exact .inr ⟨part, change, hlookup, hseen, hchange, hrest⟩

/-- Parts that have been read stay as they are. -/
theorem agreeOn_of_readMembers
    (h : Tree.readMembers partNames (readPart room) seen start trees = .ok d)
    (hpart : part ∈ seen) : AgreeOn part d start := by
  induction trees generalizing seen start with
  | nil =>
    cases h
    exact .refl part _
  | cons tree trees ih =>
    obtain ⟨name, -, ⟨-, hrest⟩ | ⟨other, change, -, hseen, hchange, hrest⟩⟩ :=
      readMembers_cons_eq_ok h
    · exact ih hrest hpart
    · have hne : part ≠ other := by
        rintro rfl
        exact hseen hpart
      exact (ih hrest (List.mem_cons_of_mem _ hpart)).trans
        ((agreeOn_of_readPart hchange start start).2 part hne)

/-- **What is read has from each member the part that it is for**, and no member is for a part that
has been read. -/
theorem of_readMembers_member (htrees : List.Forall₂ (MemberRead V) members trees)
    (h : Tree.readMembers partNames (readPart room) seen start trees = .ok d) (hm : m ∈ members)
    (hpart : IsFor m part) : part ∉ seen ∧ ∃ tree change, V m tree ∧
      readPart room part tree = .ok change ∧ ∀ c, AgreeOn part d (change c) := by
  induction htrees generalizing seen start with
  | nil => cases hm
  | @cons m' tree members trees hread _ ih =>
    obtain ⟨name, hname, hrest⟩ := readMembers_cons_eq_ok h
    rcases List.mem_cons.mp hm with rfl | hm
    · obtain ⟨name', hnamed, hlookup⟩ := hpart.exists_lookup
      obtain rfl := Except.ok.inj (hname.symm.trans (hread.1.name_eq hnamed))
      rcases hrest with ⟨hnone, -⟩ | ⟨part', change, hsome, hseen, hchange, hrest⟩
      · rw [hlookup] at hnone
        cases hnone
      · obtain rfl := Option.some.inj (hlookup.symm.trans hsome)
        refine ⟨hseen, tree.2, change, hread.2, hchange, fun c => ?_⟩
        exact (agreeOn_of_readMembers hrest List.mem_cons_self).trans
          (agreeOn_of_readPart hchange start c).1
    · rcases hrest with ⟨-, hrest⟩ | ⟨part', change, -, -, -, hrest⟩
      · exact ih hrest hm
      · obtain ⟨hseen, hresult⟩ := ih hrest hm
        exact ⟨fun hmem => hseen (List.mem_cons_of_mem _ hmem), hresult⟩

/-- **No two members of an object that is read are for one part.** -/
theorem pairwise_of_readMembers (htrees : List.Forall₂ (MemberRead V) members trees)
    (h : Tree.readMembers partNames (readPart room) seen start trees = .ok d) :
    members.Pairwise fun m m' => ∀ part, IsFor m part → ¬ IsFor m' part := by
  induction htrees generalizing seen start with
  | nil => exact .nil
  | @cons m tree members trees hread hrest' ih =>
    obtain ⟨name, hname, hrest⟩ := readMembers_cons_eq_ok h
    have hfor {part : Part} (hpart : IsFor m part) : partNames.lookup name = some part := by
      obtain ⟨name', hnamed, hlookup⟩ := hpart.exists_lookup
      obtain rfl := Except.ok.inj (hname.symm.trans (hread.1.name_eq hnamed))
      exact hlookup
    rcases hrest with ⟨hnone, hrest⟩ | ⟨part', change, hsome, -, -, hrest⟩
    · refine .cons (fun m' _ part hpart => ?_) (ih hrest)
      rw [hfor hpart] at hnone
      cases hnone
    · refine .cons (fun m' hm' part hpart hpart' => ?_) (ih hrest)
      obtain rfl := Option.some.inj ((hfor hpart).symm.trans hsome)
      exact (of_readMembers_member hrest' hrest hm' hpart').1 List.mem_cons_self

end Read

/-! ### Members that carry one condition -/

/-- A tree is read as a part of a condition exactly if it is not nested too deep; else it is
malformed. -/
def Brings (c : Condition) (part : Part) (tree : Tree) : Prop :=
  ∀ room, readPart room part tree =
    if c.partNesting part ≤ room then .ok (c.copy · part) else .error .malformed

/-- A member brings the part of a condition that it is for, or is passed over. -/
def ReadAs (c : Condition) (role : Option Part) (tree : Tree × Tree) : Prop :=
  ∃ name, tree.1.name = .ok name ∧ partNames.lookup name = role ∧
    match role with
    | none => tree.2.pass = .ok ()
    | some part => c.Brings part tree.2

/-- The parts that members carry, of members that are given with the parts that they carry. -/
def carriedParts {ι : Type} (members : List (Option Part × ι)) : List Part :=
  members.filterMap Prod.fst

theorem carriedParts_none {ι : Type} (m : ι) (members : List (Option Part × ι)) :
    carriedParts ((none, m) :: members) = carriedParts members := rfl

theorem carriedParts_some {ι : Type} (part : Part) (m : ι) (members : List (Option Part × ι)) :
    carriedParts ((some part, m) :: members) = part :: carriedParts members := rfl

/-- **Members that carry parts of a condition copy them**, in whatever order they come, if there is
room for all of them. -/
theorem readMembers_carried {ι : Type} {members : List (Option Part × ι)}
    {trees : List (Tree × Tree)}
    (htrees : List.Forall₂ (fun m tree => c.ReadAs m.1 tree) members trees)
    (once : (carriedParts members).Nodup) {seen : List Part}
    (hseen : ∀ part ∈ carriedParts members, part ∉ seen) (start : Condition) :
    Tree.readMembers partNames (readPart room) seen start trees =
      if ∀ part ∈ carriedParts members, c.partNesting part ≤ room then
        .ok ((carriedParts members).foldl c.copy start)
      else .error .malformed := by
  induction htrees generalizing seen start with
  | nil => exact (if_pos (List.forall_mem_nil _)).symm
  | @cons m tree members trees hm _ ih =>
    obtain ⟨role, m⟩ := m
    obtain ⟨nameTree, value⟩ := tree
    obtain ⟨name, hname, hlookup, hvalue⟩ := hm
    dsimp only at hname hlookup hvalue
    rw [Tree.readMembers, hname, ok_bind, hlookup]
    cases role with
    | none =>
      rw [carriedParts_none] at once hseen ⊢
      dsimp only at hvalue ⊢
      rw [hvalue, ok_bind, ih once hseen]
    | some part =>
      rw [carriedParts_some] at once hseen ⊢
      obtain ⟨hnew, once⟩ := List.nodup_cons.mp once
      obtain ⟨hpart, hseen⟩ := List.forall_mem_cons.mp hseen
      have hseen' : ∀ other ∈ carriedParts members, other ∉ part :: seen := by
        intro other hother hmem
        rcases List.mem_cons.mp hmem with rfl | hmem
        · exact hnew hother
        · exact hseen other hother hmem
      dsimp only at hvalue ⊢
      rw [if_neg hpart, hvalue room, List.foldl_cons]
      by_cases hroom : c.partNesting part ≤ room
      · rw [if_pos hroom, ok_bind, ih once hseen']
        simp only [List.forall_mem_cons, hroom, true_and]
      · rw [if_neg hroom, if_neg fun h => hroom (h part List.mem_cons_self)]
        rfl

end Conditions.Condition
