import Conditions.Evaluation

/-!
# The walk

Entering a node is refused if the node lies too deep. Otherwise the node is visited, and what
follows depends on its `Role` alone: it is at fault, it has a verdict of its own, it joins a list of
conditions, or it negates one. `and` and `or` are one role, which differs only in the verdict that
settles it.

What is proved here carries every later statement about evaluation:

* `enter_fault`, `enter_leaf`, `enter_join`, `enter_negation` and `enter_refused` say what entering
  a node does, and `enterAll_nil`, `enterAll_stop` and `enterAll_next` what entering a list does;
* `walk_induction` is the induction over a walk, with one case for each of them, and
  `enterAll_induction` the part of it that stays in one list.
-/

namespace Conditions

/-- Induction over conditions: a property of a node may be proved from that of all the conditions
it carries. -/
theorem Condition.induction {P : Condition → Prop}
    (node : ∀ c : Condition, (∀ cs, c.conditions = some cs → ∀ d ∈ cs, P d) →
      (∀ d, c.condition = some d → P d) → P c) (c : Condition) : P c := by
  refine @Condition.rec P (fun cs? => ∀ cs, cs? = some cs → ∀ d ∈ cs, P d)
    (fun c? => ∀ d, c? = some d → P d) (fun cs => ∀ d ∈ cs, P d) ?_ ?_ ?_ ?_ ?_ ?_ ?_ c
  · exact fun op property value conditions condition hcs hc => node _ hcs hc
  · intro cs h
    cases h
  · rintro cs ih _ ⟨⟩
    exact ih
  · intro d h
    cases h
  · rintro d ih _ ⟨⟩
    exact ih
  · intro d h
    cases h
  · intro d ds hd hds c' hc'
    rcases List.mem_cons.mp hc' with rfl | hc'
    · exact hd
    · exact hds c' hc'

/-- What a node asks of the walk that has entered it. -/
inductive Role where
  /-- Nothing more: it is at fault. -/
  | fault (error : EvaluationError)
  /-- Nothing more: it has a verdict. -/
  | leaf (verdict : Bool)
  /-- To enter the conditions of a list up to the first with the decisive verdict. -/
  | join (decisive : Bool) (conditions : List Condition)
  /-- To enter one condition, whose verdict it turns round. -/
  | negation (condition : Condition)

/-- The operator that joins conditions and is settled by a verdict. -/
def OperatorKind.joining : Bool → OperatorKind
  | false => .and
  | true => .or

namespace Evaluator

variable (e : Evaluator) (record : Record)

/-- The role of a node. -/
def role (c : Condition) : Role :=
  match e.resolver c.op with
  | .error error => .fault (.resolve error)
  | .ok (.compare comparison) => .leaf (e.comparisonHolds record comparison c.property c.value)
  | .ok (.unrecognized _) => .leaf false
  | .ok .and => c.conditions.elim (.fault (.missingPart .and .conditions)) (.join false)
  | .ok .or => c.conditions.elim (.fault (.missingPart .or .conditions)) (.join true)
  | .ok .not => c.condition.elim (.fault (.missingPart .not .condition)) .negation

/-- The limit of depth lets a walk enter a position. -/
def Admits (position : Position) : Prop :=
  ∀ limit, e.maxDepth = some limit → position.length < limit

theorem admits_or_refuses (position : Position) :
    e.Admits position ∨ ∃ limit, e.maxDepth = some limit ∧ limit ≤ position.length := by
  unfold Admits
  cases e.maxDepth with
  | none => simp
  | some limit => simpa using Nat.lt_or_ge position.length limit

/-! ### Roles -/

variable {e record} {position : Position} {c : Condition}

theorem role_eq_join_iff {decisive : Bool} {cs : List Condition} :
    e.role record c = .join decisive cs ↔
      e.resolver c.op = .ok (.joining decisive) ∧ c.conditions = some cs := by
  unfold role OperatorKind.joining
  cases e.resolver c.op with
  | error error => simp
  | ok kind => cases kind <;> cases decisive <;> cases c.conditions <;> cases c.condition <;> simp

theorem role_eq_negation_iff {d : Condition} :
    e.role record c = .negation d ↔ e.resolver c.op = .ok .not ∧ c.condition = some d := by
  unfold role
  cases e.resolver c.op with
  | error error => simp
  | ok kind => cases kind <;> cases c.conditions <;> cases c.condition <;> simp

/-! ### Entering a node -/

theorem enter_refused {limit : Nat} (hl : e.maxDepth = some limit) (h : limit ≤ position.length) :
    e.enter record position c = .done (.error (.tooDeep limit)) := by
  obtain ⟨op, property, value, conditions, condition⟩ := c
  have hf : e.maxDepth.filter (· < position.length + 1) = some limit := by
    simpa [hl] using Nat.lt_succ_of_le h
  rw [enter.eq_def]
  simp only [hf]

/-- An admitted node is visited, and its role says what follows. -/
theorem enter_of_admits (ha : e.Admits position) :
    e.enter record position c =
      match e.role record c with
      | .fault error => ⟨.error error, [⟨position, c⟩]⟩
      | .leaf verdict => ⟨.ok verdict, [⟨position, c⟩]⟩
      | .join decisive cs => .after [⟨position, c⟩] (e.enterAll record position decisive 0 cs)
      | .negation d =>
        .after [⟨position, c⟩] (.negate (e.enter record (.operand :: position) d)) := by
  obtain ⟨op, property, value, conditions, condition⟩ := c
  have hf : e.maxDepth.filter (· < position.length + 1) = none := by
    rw [Option.filter_eq_none_iff]
    intro limit hl
    simpa using Nat.succ_le_of_lt (ha limit hl)
  rw [enter.eq_def]
  simp only [hf, role]
  cases e.resolver op with
  | error error => rfl
  | ok kind =>
    cases kind with
    | compare comparison => rfl
    | unrecognized token => rfl
    | and => cases conditions <;> rfl
    | or => cases conditions <;> rfl
    | not => cases condition <;> rfl

theorem enter_fault {error : EvaluationError} (ha : e.Admits position)
    (h : e.role record c = .fault error) :
    e.enter record position c = ⟨.error error, [⟨position, c⟩]⟩ := by
  rw [enter_of_admits ha, h]

theorem enter_leaf {verdict : Bool} (ha : e.Admits position)
    (h : e.role record c = .leaf verdict) :
    e.enter record position c = ⟨.ok verdict, [⟨position, c⟩]⟩ := by
  rw [enter_of_admits ha, h]

/-- Where the root is admitted, a comparison has its verdict. -/
theorem evaluate_of_compare {comparison : Comparison} (ha : e.Admits [])
    (h : e.resolver c.op = .ok (.compare comparison)) :
    e.evaluate record c = .ok (e.comparisonHolds record comparison c.property c.value) := by
  have hrole : e.role record c =
      .leaf (e.comparisonHolds record comparison c.property c.value) := by rw [role, h]
  rw [evaluate, run, enter_leaf ha hrole]

theorem enter_join {decisive : Bool} {cs : List Condition} (ha : e.Admits position)
    (h : e.role record c = .join decisive cs) :
    e.enter record position c =
      .after [⟨position, c⟩] (e.enterAll record position decisive 0 cs) := by
  rw [enter_of_admits ha, h]

theorem enter_negation {d : Condition} (ha : e.Admits position)
    (h : e.role record c = .negation d) :
    e.enter record position c =
      .after [⟨position, c⟩] (.negate (e.enter record (.operand :: position) d)) := by
  rw [enter_of_admits ha, h]

/-- An admitted node is the first one visited. -/
theorem visits_enter_eq_cons (ha : e.Admits position) :
    ∃ vs, (e.enter record position c).visits = ⟨position, c⟩ :: vs := by
  cases hr : e.role record c with
  | fault error => exact ⟨[], by rw [enter_fault ha hr]⟩
  | leaf verdict => exact ⟨[], by rw [enter_leaf ha hr]⟩
  | join decisive cs => exact ⟨_, by rw [enter_join ha hr]; rfl⟩
  | negation d => exact ⟨_, by rw [enter_negation ha hr]; rfl⟩

theorem mem_visits_enter (ha : e.Admits position) :
    ⟨position, c⟩ ∈ (e.enter record position c).visits := by
  obtain ⟨vs, hvs⟩ : ∃ vs, (e.enter record position c).visits = ⟨position, c⟩ :: vs :=
    visits_enter_eq_cons ha
  exact hvs ▸ List.mem_cons_self

/-! ### Entering a list -/

variable {decisive : Bool} {index : Nat} {cs : List Condition}

theorem enterAll_nil : e.enterAll record position decisive index [] = .done (.ok !decisive) := by
  rw [enterAll]

/-- A list ends at the first condition that does not have the verdict to go on. -/
theorem enterAll_stop
    (h : (e.enter record (.item index :: position) c).outcome ≠ .ok !decisive) :
    e.enterAll record position decisive index (c :: cs) =
      e.enter record (.item index :: position) c := by
  rw [enterAll]
  cases ho : (e.enter record (.item index :: position) c).outcome with
  | error error => rfl
  | ok verdict =>
    have hv : verdict = decisive := by
      rw [ho] at h
      cases verdict <;> cases decisive <;> simp_all
    simp only [if_pos hv]

/-- After a condition that does not settle it, a list goes on to the next one. -/
theorem enterAll_next
    (h : (e.enter record (.item index :: position) c).outcome = .ok !decisive) :
    e.enterAll record position decisive index (c :: cs) =
      .after (e.enter record (.item index :: position) c).visits
        (e.enterAll record position decisive (index + 1) cs) := by
  rw [enterAll]
  simp only [h]
  rw [if_neg (by cases decisive <;> decide)]

/-! ### Induction over a walk -/

/-- What holds of every run of the rest of a list, if each way of entering it passes it on. -/
theorem enterAll_induction (e : Evaluator) (record : Record) (position : Position)
    (decisive : Bool) {Q : Nat → List Condition → Run → Prop}
    (nil : ∀ index, Q index [] (.done (.ok !decisive)))
    (stop : ∀ index c cs,
      (e.enter record (.item index :: position) c).outcome ≠ .ok !decisive →
      Q index (c :: cs) (e.enter record (.item index :: position) c))
    (next : ∀ index c cs,
      (e.enter record (.item index :: position) c).outcome = .ok !decisive →
      Q (index + 1) cs (e.enterAll record position decisive (index + 1) cs) →
      Q index (c :: cs) (.after (e.enter record (.item index :: position) c).visits
        (e.enterAll record position decisive (index + 1) cs)))
    (index : Nat) (cs : List Condition) :
    Q index cs (e.enterAll record position decisive index cs) := by
  induction cs generalizing index with
  | nil => exact enterAll_nil ▸ nil index
  | cons c cs ih =>
    by_cases h : (e.enter record (.item index :: position) c).outcome = .ok !decisive
    · rw [enterAll_next h]
      exact next index c cs h (ih (index + 1))
    · rw [enterAll_stop h]
      exact stop index c cs h

/-- What holds of every run of a node, if each way of entering a node or a list passes it on. `P`
speaks of the run of a node, `Q` of the run of the rest of a list. -/
theorem walk_induction (e : Evaluator) (record : Record) {P : Position → Condition → Run → Prop}
    {Q : Position → Bool → Nat → List Condition → Run → Prop}
    (refused : ∀ position c limit, e.maxDepth = some limit → limit ≤ position.length →
      P position c (.done (.error (.tooDeep limit))))
    (fault : ∀ position c error, e.Admits position → e.role record c = .fault error →
      P position c ⟨.error error, [⟨position, c⟩]⟩)
    (leaf : ∀ position c verdict, e.Admits position → e.role record c = .leaf verdict →
      P position c ⟨.ok verdict, [⟨position, c⟩]⟩)
    (join : ∀ position c decisive cs, e.Admits position → e.role record c = .join decisive cs →
      Q position decisive 0 cs (e.enterAll record position decisive 0 cs) →
      P position c (.after [⟨position, c⟩] (e.enterAll record position decisive 0 cs)))
    (negation : ∀ position c d, e.Admits position → e.role record c = .negation d →
      P (.operand :: position) d (e.enter record (.operand :: position) d) →
      P position c (.after [⟨position, c⟩] (.negate (e.enter record (.operand :: position) d))))
    (nil : ∀ position decisive index, Q position decisive index [] (.done (.ok !decisive)))
    (stop : ∀ position decisive index c cs,
      (e.enter record (.item index :: position) c).outcome ≠ .ok !decisive →
      P (.item index :: position) c (e.enter record (.item index :: position) c) →
      Q position decisive index (c :: cs) (e.enter record (.item index :: position) c))
    (next : ∀ position decisive index c cs,
      (e.enter record (.item index :: position) c).outcome = .ok !decisive →
      P (.item index :: position) c (e.enter record (.item index :: position) c) →
      Q position decisive (index + 1) cs
        (e.enterAll record position decisive (index + 1) cs) →
      Q position decisive index (c :: cs)
        (.after (e.enter record (.item index :: position) c).visits
          (e.enterAll record position decisive (index + 1) cs)))
    (position : Position) (c : Condition) : P position c (e.enter record position c) := by
  induction c using Condition.induction generalizing position with
  | node c ihs ih =>
    rcases e.admits_or_refuses position with ha | ⟨limit, hl, hle⟩
    · cases hr : e.role record c with
      | fault error => exact enter_fault ha hr ▸ fault position c error ha hr
      | leaf verdict => exact enter_leaf ha hr ▸ leaf position c verdict ha hr
      | join decisive cs =>
        rw [enter_join ha hr]
        refine join position c decisive cs ha hr ?_
        have hcs := ihs cs (role_eq_join_iff.mp hr).2
        -- the list is entered from its start, but its induction is over any rest of it
        refine enterAll_induction e record position decisive (Q := fun index ds r =>
          (∀ d ∈ ds, ∀ position, P position d (e.enter record position d)) →
            Q position decisive index ds r) ?_ ?_ ?_ 0 cs hcs
        · exact fun index _ => nil position decisive index
        · exact fun index d ds ho hds =>
            stop position decisive index d ds ho (hds d List.mem_cons_self _)
        · exact fun index d ds ho ihds hds =>
            next position decisive index d ds ho (hds d List.mem_cons_self _)
              (ihds fun d' hd' => hds d' (List.mem_cons_of_mem d hd'))
      | negation d =>
        rw [enter_negation ha hr]
        exact negation position c d ha hr (ih d (role_eq_negation_iff.mp hr).2 _)
    · rw [enter_refused hl hle]
      exact refused position c limit hl hle

end Evaluator

end Conditions
