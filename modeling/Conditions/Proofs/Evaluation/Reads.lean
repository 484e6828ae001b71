import Conditions.Proofs.Evaluation.Walk

/-!
# What a run reads

A run knows of a node no more than its role, so two evaluators that give the same role to every node
that one of them visits go in step to the end (`enter_eq_of_role_eq`). The role of a node is read
off what its token is resolved to and, of a comparison, off the field of the record that it names.
Of that field only the operand counts: a number by its value, however it is written, and a list or
an object not by what it holds (`Operand.Same`).

Hence `run_eq_of_reads`: resolvers and records that agree where a run looks at them make the same
run.
-/

namespace Conditions

/-! ### Operands that no comparison tells apart -/

namespace Binary64

variable {x y : Binary64}

/-- Two words stand for the same number, or both for none. -/
def Same (x y : Binary64) : Prop := x.key = y.key ∨ x.isNaN ∧ y.isNaN

theorem rank_eq_natAbs_key (x : Binary64) : x.rank = x.key.natAbs := by
  unfold key
  split <;> simp

theorem Same.isNaN_eq (h : Same x y) : x.isNaN = y.isNaN := by
  rcases h with h | ⟨hx, hy⟩
  · rw [isNaN, isNaN, rank_eq_natAbs_key, rank_eq_natAbs_key, h]
  · rw [hx, hy]

theorem Same.eq_eq (h : Same x y) (z : Binary64) : x.eq z = y.eq z := by
  rw [eq, eq, h.isNaN_eq]
  rcases h with h | ⟨-, hy⟩
  · rw [h]
  · simp [hy]

theorem Same.lt_eq (h : Same x y) (z : Binary64) : x.lt z = y.lt z := by
  rw [lt, lt, h.isNaN_eq]
  rcases h with h | ⟨-, hy⟩
  · rw [h]
  · simp [hy]

theorem Same.lt_eq' (h : Same x y) (z : Binary64) : z.lt x = z.lt y := by
  rw [lt, lt, h.isNaN_eq]
  rcases h with h | ⟨-, hy⟩
  · rw [h]
  · simp [hy]

end Binary64

namespace Operand

/-- Two operands are the same to every comparison. -/
def Same : Operand → Operand → Prop
  | .number x, .number y => x.Same y
  | a, b => a = b

theorem numberBelow?_left {x y : Binary64} (h : x.Same y) (z : Binary64) :
    numberBelow? x z = numberBelow? y z := by
  rw [numberBelow?, numberBelow?, h.isNaN_eq, h.lt_eq]

theorem numberBelow?_right {x y : Binary64} (h : x.Same y) (z : Binary64) :
    numberBelow? z x = numberBelow? z y := by
  rw [numberBelow?, numberBelow?, h.isNaN_eq, h.lt_eq']

variable {a b : Operand}

theorem Same.refl (a : Operand) : Same a a := by
  cases a with
  | number x => exact .inl rfl
  | _ => rfl

theorem Same.eq_or_number (h : Same a b) :
    a = b ∨ ∃ x y : Binary64, a = .number x ∧ b = .number y ∧ x.Same y := by
  cases a with
  | number x =>
    cases b with
    | number y => exact .inr ⟨x, y, rfl, rfl, h⟩
    | _ => exact .inl h
  | _ => exact .inl h

theorem Same.equal_eq (h : Same a b) (c : Operand) : a.equal c = b.equal c := by
  obtain rfl | ⟨x, y, rfl, rfl, hxy⟩ := h.eq_or_number
  · rfl
  · cases c with
    | number z => exact hxy.eq_eq z
    | _ => rfl

theorem Same.below?_left (h : Same a b) (mode : OrderingMode) (c : Operand) :
    a.below? mode c = b.below? mode c := by
  obtain rfl | ⟨x, y, rfl, rfl, hxy⟩ := h.eq_or_number
  · rfl
  · cases mode with
    | strict =>
      cases c with
      | number z => exact numberBelow?_left hxy z
      | _ => rfl
    | loose =>
      show (c.toNumber?.bind fun z => numberBelow? x z) = c.toNumber?.bind fun z => numberBelow? y z
      simp only [numberBelow?_left hxy]

theorem Same.below?_right (h : Same a b) (mode : OrderingMode) (c : Operand) :
    c.below? mode a = c.below? mode b := by
  obtain rfl | ⟨x, y, rfl, rfl, hxy⟩ := h.eq_or_number
  · rfl
  · cases mode with
    | strict =>
      cases c with
      | number z => exact numberBelow?_right hxy z
      | _ => rfl
    | loose =>
      have hc (z : Binary64) : c.below? .loose (.number z) =
          c.toNumber?.bind fun w => numberBelow? w z := by cases c <;> rfl
      simp only [hc, numberBelow?_right hxy]

/-- No comparison tells operands apart that are the same. -/
theorem Same.holds_eq (h : Same a b) (comparison : Comparison) (mode : OrderingMode)
    (c : Operand) : comparison.holds mode a c = comparison.holds mode b c := by
  cases comparison with
  | equals => exact h.equal_eq c
  | notEquals => exact congrArg (!·) (h.equal_eq c)
  | lessThan => exact congrArg (· == some true) (h.below?_left mode c)
  | greaterThan => exact congrArg (· == some true) (h.below?_right mode c)
  | lessThanOrEqual => exact congrArg (· == some false) (h.below?_right mode c)
  | greaterThanOrEqual => exact congrArg (· == some false) (h.below?_left mode c)

end Operand

/-! ### Runs in step -/

/-- Writes of other fields leave a field as it is. -/
theorem Record.get?_writes {writes : List (String × Json)} {name : String}
    (h : ∀ write ∈ writes, write.1 ≠ name) (record : Record) :
    (writes.foldl (fun record write => record.insert write.1 write.2) record).get? name =
      record.get? name := by
  induction writes generalizing record with
  | nil => rfl
  | cons write writes ih =>
    obtain ⟨hne, hrest⟩ := List.forall_mem_cons.mp h
    rw [List.foldl_cons, ih hrest, get?_insert_of_ne record hne.symm]

namespace Evaluator

variable {e e' : Evaluator} {record record' : Record}

/-- **Runs go in step** as long as the nodes visited have the same role for both. -/
theorem enter_eq_of_role_eq (hlimit : e'.maxDepth = e.maxDepth) (position : Position)
    (c : Condition)
    (hrole : ∀ v ∈ (e.enter record position c).visits,
      e'.role record' v.node = e.role record v.node) :
    e'.enter record' position c = e.enter record position c := by
  have admits {position : Position} (ha : e.Admits position) : e'.Admits position := fun limit hl =>
    ha limit (hlimit ▸ hl)
  revert hrole
  apply walk_induction e record
    (P := fun position c r => (∀ v ∈ r.visits, e'.role record' v.node = e.role record v.node) →
      e'.enter record' position c = r)
    (Q := fun position decisive index cs r =>
      (∀ v ∈ r.visits, e'.role record' v.node = e.role record v.node) →
      e'.enterAll record' position decisive index cs = r)
  case refused => exact fun position c limit hl hle _ => enter_refused (hlimit.trans hl) hle
  case fault =>
    intro position c error ha hr hrole
    exact enter_fault (admits ha) ((hrole _ List.mem_cons_self).trans hr)
  case leaf =>
    intro position c verdict ha hr hrole
    exact enter_leaf (admits ha) ((hrole _ List.mem_cons_self).trans hr)
  case join =>
    intro position c decisive cs ha hr ih hrole
    obtain ⟨hc, hcs⟩ := List.forall_mem_cons.mp hrole
    rw [enter_join (admits ha) (hc.trans hr), ih hcs]
  case negation =>
    intro position c d ha hr ih hrole
    obtain ⟨hc, hd⟩ := List.forall_mem_cons.mp hrole
    rw [enter_negation (admits ha) (hc.trans hr), ih hd]
  case nil => exact fun position decisive index _ => enterAll_nil
  case stop =>
    intro position decisive index c cs ho ih hrole
    rw [enterAll_stop, ih hrole]
    rwa [ih hrole]
  case next =>
    intro position decisive index c cs ho ih ihs hrole
    obtain ⟨hc, hcs⟩ := List.forall_mem_append.mp hrole
    rw [enterAll_next, ih hc, ihs hcs]
    rw [ih hc, ho]

/-- A node has the same role for resolvers that agree on its token, and for records in which the
field that it compares, if it compares one, is the same operand. -/
theorem role_eq_of_reads {resolver resolver' : Resolver} {ordering : OrderingMode}
    {maxDepth : Option Nat} {c : Condition} (hop : resolver' c.op = resolver c.op)
    (hfield : ∀ comparison, resolver c.op = .ok (.compare comparison) →
      ∀ name, c.property = some name →
        Operand.Same (.ofField (record.get? name)) (.ofField (record'.get? name))) :
    (⟨resolver', ordering, maxDepth⟩ : Evaluator).role record' c =
      (⟨resolver, ordering, maxDepth⟩ : Evaluator).role record c := by
  unfold role
  simp only [hop]
  cases hk : resolver c.op with
  | error error => rfl
  | ok kind =>
    cases kind with
    | compare comparison =>
      refine congrArg Role.leaf ?_
      cases hp : c.property with
      | none => rfl
      | some name =>
        have hsame := hfield comparison hk name hp
        exact (hsame.holds_eq comparison ordering (.ofLiteral c.value)).symm
    | _ => rfl

/-- **A run reads no more than it visits**. A resolver that agrees on the tokens of the nodes
visited, and a record in which the fields that the comparisons among them name are the same
operands, make the same run. So writing fields that no comparison visited names changes nothing. -/
theorem run_eq_of_reads (resolver : Resolver) (ordering : OrderingMode) (maxDepth : Option Nat)
    (record : Record) (c : Condition) :
    (∀ (resolver' : Resolver) (record' : Record),
      (∀ v ∈ (run ⟨resolver, ordering, maxDepth⟩ record c).visits,
        resolver' v.node.op = resolver v.node.op) →
      (∀ v ∈ (run ⟨resolver, ordering, maxDepth⟩ record c).visits,
        ∀ comparison, resolver v.node.op = .ok (.compare comparison) →
        ∀ name, v.node.property = some name →
          Operand.Same (.ofField (record.get? name)) (.ofField (record'.get? name))) →
      run ⟨resolver', ordering, maxDepth⟩ record' c = run ⟨resolver, ordering, maxDepth⟩ record c) ∧
    ∀ writes : List (String × Json),
      (∀ v ∈ (run ⟨resolver, ordering, maxDepth⟩ record c).visits,
        ∀ comparison, resolver v.node.op = .ok (.compare comparison) →
        ∀ write ∈ writes, v.node.property ≠ some write.1) →
      run ⟨resolver, ordering, maxDepth⟩
          (writes.foldl (fun record write => record.insert write.1 write.2) record) c =
        run ⟨resolver, ordering, maxDepth⟩ record c := by
  refine ⟨fun resolver' record' hresolver hrecord => ?_, fun writes hwrites => ?_⟩
  · refine enter_eq_of_role_eq ?_ [] c fun v hv =>
      role_eq_of_reads (hresolver v hv) (hrecord v hv)
    rfl
  · refine enter_eq_of_role_eq rfl [] c fun v hv =>
      role_eq_of_reads rfl fun comparison hop name hname => ?_
    have hothers : ∀ write ∈ writes, write.1 ≠ name := fun write hwrite heq =>
      hwrites v hv comparison hop write hwrite (heq ▸ hname)
    rw [Record.get?_writes hothers]
    exact .refl _

/-- Settled by its first comparison, where there are tags. -/
def tagged : Condition :=
  .any [.compare (.compare .notEquals) "tags" .null,
    .compare (.compare .equals) "flag" (.bool true)]

/-- The built-in aliases, without the name of equality. -/
def withoutEquals : Resolver := fun token =>
  if token = "equals" then .error (.unknown token) else standard.resolver token

theorem run_eq_of_reads_tagged :
    run ⟨withoutEquals, .loose, none⟩ (.ofWrites [("tags", .ofWrites []), ("flag", .null)]) tagged =
        standard.run (.ofWrites [("tags", .array [.null])]) tagged ∧
      standard.evaluate (.ofWrites [("tags", .array [.null])]) tagged = .ok true := by
  have hvisits : (run ⟨standard.resolver, .loose, none⟩
      (.ofWrites [("tags", .array [.null])]) tagged).visits =
        [⟨[], tagged⟩, ⟨[.item 0], .compare (.compare .notEquals) "tags" .null⟩] := rfl
  obtain ⟨hsame, -⟩ := run_eq_of_reads standard.resolver .loose none
    (.ofWrites [("tags", .array [.null])]) tagged
  simp only [hvisits, List.mem_cons, List.not_mem_nil, or_false, forall_eq_or_imp,
    forall_eq] at hsame
  refine ⟨hsame withoutEquals _ ⟨rfl, rfl⟩
    ⟨fun comparison hop => ?_, fun comparison hop name hname => ?_⟩, rfl⟩
  · cases hop
  · cases hname
    rfl

end Evaluator

end Conditions
