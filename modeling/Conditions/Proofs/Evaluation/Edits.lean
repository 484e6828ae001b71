import Conditions.Proofs.Evaluation.Segments
import Mathlib.Data.List.Nodup

/-!
# Edits that a run does not see

What a run does not visit cannot matter to it. `Edit` collects the changes that a run does not see:
another condition where no node is visited, other parts where an operator needs none, and another
rest of a list after the condition that settles it. Any number of them leave the outcome and the
tokens as they are.

The proof goes through `Alike`, which holds of two conditions that the walk cannot tell apart. It
follows the walk on the first of them, so that each edit keeps it (`Alike.edit`) and the two runs
are the same (`Alike.same`).
-/

namespace Conditions

/-! ### Runs that cannot be told apart -/

namespace Run

/-- The positions and tokens of the nodes visited. -/
def trace (r : Run) : List (Position × String) := r.visits.map fun v => (v.position, v.node.op)

/-- Two runs have the same outcome and give the same tokens at the same positions. -/
structure Same (r r' : Run) : Prop where
  /-- They end alike. -/
  outcome : r'.outcome = r.outcome
  /-- They go alike. -/
  trace : r'.trace = r.trace

variable {r r' s s' : Run}

theorem tokens_eq_of_trace_eq (h : r'.trace = r.trace) : r'.tokens = r.tokens := by
  have htokens (r : Run) : r.tokens = r.trace.map (·.2) := by simp [tokens, trace]
  rw [htokens, htokens, h]

theorem Same.visit (position : Position) {c c' : Condition} (op : c'.op = c.op) (h : Same r r') :
    Same (.after [⟨position, c⟩] r) (.after [⟨position, c'⟩] r') :=
  ⟨h.outcome, by simpa [Run.trace, op] using h.trace⟩

theorem Same.after (hr : Same r r') (hs : Same s s') :
    Same (.after r.visits s) (.after r'.visits s') :=
  ⟨hs.outcome, by simpa [Run.trace] using congrArg₂ (· ++ ·) hr.trace hs.trace⟩

theorem Same.negate (h : Same r r') : Same r.negate r'.negate :=
  ⟨congrArg (Except.map (!·)) h.outcome, h.trace⟩

end Run

namespace Evaluator

/-! ### Edits -/

/-- Two nodes have the same token, and the same parts as far as its operator needs them. -/
def SameNeeds (e : Evaluator) (c c' : Condition) : Prop :=
  c'.op = c.op ∧
    match e.resolver c.op with
    | .ok (.compare _) => c'.property = c.property ∧ c'.value = c.value
    | .ok .and | .ok .or => c'.conditions = c.conditions
    | .ok .not => c'.condition = c.condition
    | .ok (.unrecognized _) | .error _ => True

/-- In the run of a root, a visited `and` or `or` is settled at an index of its list: the condition
there is the first that fixes its verdict or raises its error. -/
def SettledAt (e : Evaluator) (record : Record) (root : Condition) (position : Position)
    (index : Nat) : Prop :=
  ∃ (n : Condition) (decisive : Bool) (cs : List Condition) (c : Condition),
    ⟨position, n⟩ ∈ (e.run record root).visits ∧ e.resolver n.op = .ok (.joining decisive) ∧
    n.conditions = some cs ∧ cs[index]? = some c ∧
    (e.enter record (.item index :: position) c).outcome ≠ .ok !decisive ∧
    ∀ i < index, ∀ d, cs[i]? = some d →
      (e.enter record (.item i :: position) d).outcome = .ok !decisive

/-- A change of the condition at a position that the run of a root does not see. -/
inductive Edit (e : Evaluator) (record : Record) (root : Condition) :
    Position → Condition → Condition → Prop where
  /-- A condition whose node is not visited becomes any other. -/
  | unvisited {position : Position} {c c' : Condition}
      (h : position ∉ (e.run record root).visits.map (·.position)) :
      Edit e record root position c c'
  /-- The rest of a list after the condition that settles it becomes any other. -/
  | rest {position : Position} {c : Condition} {front rest rest' : List Condition}
      (settled : e.SettledAt record root position front.length) {d : Condition}
      (conditions : c.conditions = some (front ++ d :: rest)) :
      Edit e record root position c { c with conditions := some (front ++ d :: rest') }
  /-- The parts that the operator of a node does not need become any others. -/
  | unneeded {position : Position} {c c' : Condition} (h : e.SameNeeds c c') :
      Edit e record root position c c'
  /-- An edit of a condition in the list. -/
  | item {position : Position} {c : Condition} {front rest : List Condition} {d d' : Condition}
      (conditions : c.conditions = some (front ++ d :: rest))
      (edit : Edit e record root (.item front.length :: position) d d') :
      Edit e record root position c { c with conditions := some (front ++ d' :: rest) }
  /-- An edit of the single condition. -/
  | operand {position : Position} {c d d' : Condition} (condition : c.condition = some d)
      (edit : Edit e record root (.operand :: position) d d') :
      Edit e record root position c { c with condition := some d' }

/-! ### Conditions alike to the walk -/

mutual

/-- Two conditions are alike to the walk that enters the first of them. -/
inductive Alike (e : Evaluator) (record : Record) : Position → Condition → Condition → Prop where
  /-- The node is refused. -/
  | refused {position : Position} {c c' : Condition} {limit : Nat} (hl : e.maxDepth = some limit)
      (h : limit ≤ position.length) : Alike e record position c c'
  /-- Both nodes are at the same fault. -/
  | fault {position : Position} {c c' : Condition} {error : EvaluationError} (op : c'.op = c.op)
      (role : e.role record c = .fault error) (role' : e.role record c' = .fault error) :
      Alike e record position c c'
  /-- Both nodes have the same verdict. -/
  | leaf {position : Position} {c c' : Condition} {verdict : Bool} (op : c'.op = c.op)
      (role : e.role record c = .leaf verdict) (role' : e.role record c' = .leaf verdict) :
      Alike e record position c c'
  /-- Both nodes join lists that are alike. -/
  | join {position : Position} {c c' : Condition} {decisive : Bool} {cs cs' : List Condition}
      (op : c'.op = c.op) (role : e.role record c = .join decisive cs)
      (role' : e.role record c' = .join decisive cs')
      (lists : AlikeLists e record position decisive 0 cs cs') : Alike e record position c c'
  /-- Both nodes negate conditions that are alike. -/
  | negation {position : Position} {c c' d d' : Condition} (op : c'.op = c.op)
      (role : e.role record c = .negation d) (role' : e.role record c' = .negation d')
      (conditions : Alike e record (.operand :: position) d d') : Alike e record position c c'

/-- Two lists are alike to the walk that enters the first of them from an index on. -/
inductive AlikeLists (e : Evaluator) (record : Record) :
    Position → Bool → Nat → List Condition → List Condition → Prop where
  /-- Both lists are at their end. -/
  | nil {position : Position} {decisive : Bool} {index : Nat} :
      AlikeLists e record position decisive index [] []
  /-- The first conditions are alike and settle the lists. -/
  | stop {position : Position} {decisive : Bool} {index : Nat} {c c' : Condition}
      {cs cs' : List Condition}
      (stop : (e.enter record (.item index :: position) c).outcome ≠ .ok !decisive)
      (first : Alike e record (.item index :: position) c c') :
      AlikeLists e record position decisive index (c :: cs) (c' :: cs')
  /-- The first conditions are alike and do not settle the lists, and the rests are alike. -/
  | next {position : Position} {decisive : Bool} {index : Nat} {c c' : Condition}
      {cs cs' : List Condition}
      (next : (e.enter record (.item index :: position) c).outcome = .ok !decisive)
      (first : Alike e record (.item index :: position) c c')
      (rest : AlikeLists e record position decisive (index + 1) cs cs') :
      AlikeLists e record position decisive index (c :: cs) (c' :: cs')

end

variable {e : Evaluator} {record : Record} {position : Position} {c c' : Condition}

/-- A condition is like itself. -/
theorem Alike.refl (e : Evaluator) (record : Record) (position : Position) (c : Condition) :
    e.Alike record position c c := by
  apply walk_induction e record (P := fun position c _ => e.Alike record position c c)
    (Q := fun position decisive index cs _ => e.AlikeLists record position decisive index cs cs)
  case refused => exact fun position c limit hl h => .refused hl h
  case fault => exact fun position c error _ hr => .fault rfl hr hr
  case leaf => exact fun position c verdict _ hr => .leaf rfl hr hr
  case join => exact fun position c decisive cs _ hr ih => .join rfl hr hr ih
  case negation => exact fun position c d _ hr ih => .negation rfl hr hr ih
  case nil => exact fun position decisive index => .nil
  case stop => exact fun position decisive index c cs ho ih => .stop ho ih
  case next => exact fun position decisive index c cs ho ih ihs => .next ho ih ihs

/-! ### Edits keep conditions alike -/

theorem SameNeeds.role_eq (h : e.SameNeeds c c') : e.role record c' = e.role record c := by
  obtain ⟨hop, hparts⟩ := h
  unfold role
  rw [hop]
  cases hk : e.resolver c.op with
  | error error => rfl
  | ok kind =>
    rw [hk] at hparts
    cases kind with
    | compare comparison => rw [hparts.1, hparts.2]
    | unrecognized token => rfl
    | and => rw [hparts]
    | or => rw [hparts]
    | not => rw [hparts]

/-- Another list in place of a list changes what a node joins, and nothing else of its role. -/
theorem role_conditions (e : Evaluator) (record : Record) {cs : List Condition}
    (h : c.conditions = some cs) (cs' : List Condition) :
    e.role record { c with conditions := some cs' } =
      match e.role record c with
      | .join decisive _ => .join decisive cs'
      | role => role := by
  unfold role
  cases e.resolver c.op with
  | error error => rfl
  | ok kind => cases kind <;> cases c.condition <;> simp [h]

/-- Another condition in place of a condition changes what a node negates, and nothing else of its
role. -/
theorem role_condition (e : Evaluator) (record : Record) {d : Condition}
    (h : c.condition = some d) (d' : Condition) :
    e.role record { c with condition := some d' } =
      match e.role record c with
      | .negation _ => .negation d'
      | role => role := by
  unfold role
  cases e.resolver c.op with
  | error error => rfl
  | ok kind => cases kind <;> cases c.conditions <;> simp [h]

/-- Only conditions that are entered can be told apart. -/
theorem Alike.of_admits (h : e.Admits position → e.Alike record position c c') :
    e.Alike record position c c' := by
  rcases e.admits_or_refuses position with ha | ⟨limit, hl, hle⟩
  · exact h ha
  · exact .refused hl hle

theorem Alike.of_role_eq {c'' : Condition} (h : e.Alike record position c c') (hop : c''.op = c'.op)
    (hrole : e.role record c'' = e.role record c') : e.Alike record position c c'' := by
  cases h with
  | refused hl h => exact .refused hl h
  | fault op role role' => exact .fault (hop.trans op) role (hrole.trans role')
  | leaf op role role' => exact .leaf (hop.trans op) role (hrole.trans role')
  | join op role role' lists => exact .join (hop.trans op) role (hrole.trans role') lists
  | negation op role role' conditions =>
    exact .negation (hop.trans op) role (hrole.trans role') conditions

/-- Alike nodes stay alike with another list, if their lists do. -/
theorem Alike.with_conditions {cs' cs'' : List Condition} (h : e.Alike record position c c')
    (hcs' : c'.conditions = some cs')
    (hlists : ∀ decisive cs, e.role record c = .join decisive cs →
      e.AlikeLists record position decisive 0 cs cs' →
      e.AlikeLists record position decisive 0 cs cs'') :
    e.Alike record position c { c' with conditions := some cs'' } := by
  have hrole := e.role_conditions record hcs' cs''
  cases h with
  | refused hl h => exact .refused hl h
  | fault op role role' => exact .fault op role (by rw [hrole, role'])
  | leaf op role role' => exact .leaf op role (by rw [hrole, role'])
  | join op role role' lists =>
    refine .join op role (by rw [hrole, role']) (hlists _ _ role ?_)
    cases hcs'.symm.trans (role_eq_join_iff.mp role').2
    exact lists
  | negation op role role' conditions => exact .negation op role (by rw [hrole, role']) conditions

/-- Alike nodes stay alike with another single condition, if their conditions do. -/
theorem Alike.with_condition {d' d'' : Condition} (h : e.Alike record position c c')
    (hd' : c'.condition = some d')
    (hconditions : ∀ d, e.role record c = .negation d →
      e.Alike record (.operand :: position) d d' → e.Alike record (.operand :: position) d d'') :
    e.Alike record position c { c' with condition := some d'' } := by
  have hrole := e.role_condition record hd' d''
  cases h with
  | refused hl h => exact .refused hl h
  | fault op role role' => exact .fault op role (by rw [hrole, role'])
  | leaf op role role' => exact .leaf op role (by rw [hrole, role'])
  | join op role role' lists => exact .join op role (by rw [hrole, role']) lists
  | negation op role role' conditions =>
    refine .negation op role (by rw [hrole, role']) (hconditions _ role ?_)
    cases hd'.symm.trans (role_eq_negation_iff.mp role').2
    exact conditions

/-- Lists stay alike with another rest after the condition that settles them. -/
theorem AlikeLists.change_rest {decisive : Bool} {index : Nat} {cs front rest : List Condition}
    {d : Condition} (rest' : List Condition)
    (h : e.AlikeLists record position decisive index cs (front ++ d :: rest))
    (hstop : ∀ c, cs[front.length]? = some c →
      (e.enter record (.item (index + front.length) :: position) c).outcome ≠ .ok !decisive) :
    e.AlikeLists record position decisive index cs (front ++ d :: rest') := by
  induction front generalizing index cs with
  | nil =>
    cases h with
    | stop stop first => exact .stop stop first
    | next next _ _ => exact absurd next (hstop _ rfl)
  | cons f front ih =>
    cases h with
    | stop stop first => exact .stop stop first
    | next next first rest =>
      refine .next next first (ih rest fun c hc => ?_)
      rw [Nat.add_assoc, Nat.add_comm 1]
      exact hstop c hc

/-- Lists stay alike with another condition in place of one, if the conditions do. -/
theorem AlikeLists.change_item {decisive : Bool} {index : Nat} {cs front rest : List Condition}
    {d d' : Condition}
    (h : e.AlikeLists record position decisive index cs (front ++ d :: rest))
    (hitem : ∀ c, (∀ v ∈ (e.enter record (.item (index + front.length) :: position) c).visits,
        v ∈ (e.enterAll record position decisive index cs).visits) →
      e.Alike record (.item (index + front.length) :: position) c d →
      e.Alike record (.item (index + front.length) :: position) c d') :
    e.AlikeLists record position decisive index cs (front ++ d' :: rest) := by
  induction front generalizing index cs with
  | nil =>
    cases h with
    | stop stop first =>
      refine .stop stop (hitem _ (fun v hv => ?_) first)
      rwa [enterAll_stop stop]
    | next next first rest =>
      refine .next next (hitem _ (fun v hv => ?_) first) rest
      rw [enterAll_next next]
      exact List.mem_append_left _ hv
  | cons f front ih =>
    cases h with
    | stop stop first => exact .stop stop first
    | next next first rest =>
      refine .next next first (ih rest ?_)
      rw [Nat.add_assoc, Nat.add_comm 1]
      refine fun c hc => hitem c fun v hv => ?_
      rw [enterAll_next next]
      exact List.mem_append_right _ (hc v hv)

/-- Only one node is visited at a position. -/
theorem node_eq_of_mem_visits {root : Condition} {n n' : Condition}
    (h : ⟨position, n⟩ ∈ (e.run record root).visits)
    (h' : ⟨position, n'⟩ ∈ (e.run record root).visits) : n = n' :=
  congrArg Visit.node (List.inj_on_of_nodup_map (e.nodup_visits record [] root) h h' rfl)

/-- **An edit keeps a condition alike** to the one that the run of the root enters in its place. -/
theorem Alike.edit {root c'' : Condition} (h : e.Edit record root position c' c'')
    (hc : e.Alike record position c c')
    (hv : ∀ v ∈ (e.enter record position c).visits, v ∈ (e.run record root).visits) :
    e.Alike record position c c'' := by
  induction h generalizing c with
  | unneeded h => exact hc.of_role_eq h.1 h.role_eq
  | @unvisited position c' c'' h =>
    exact .of_admits fun ha => absurd (List.mem_map_of_mem (hv _ (mem_visits_enter ha))) h
  | @rest position c' front rest rest' settled d conditions =>
    refine .of_admits fun ha => ?_
    -- the node at which the list is settled is the one entered here
    obtain ⟨n, decisive, ns, s, hn, hop, hns, hs, hstop, -⟩ := settled
    obtain rfl := node_eq_of_mem_visits hn (hv _ (mem_visits_enter ha))
    refine hc.with_conditions conditions fun decisive' cs hr lists => ?_
    cases (role_eq_join_iff.mpr ⟨hop, hns⟩).symm.trans hr
    refine lists.change_rest rest' fun s' hs' => ?_
    cases hs.symm.trans hs'
    rwa [Nat.zero_add]
  | @item position c' front rest d d' conditions edit ih =>
    refine .of_admits fun ha => ?_
    refine hc.with_conditions conditions fun decisive cs hr lists => ?_
    refine lists.change_item fun s hs hd => ?_
    rw [Nat.zero_add] at hs hd ⊢
    refine ih hd fun v hsv => hv v ?_
    rw [enter_join ha hr]
    exact List.mem_append_right _ (hs v hsv)
  | @operand position c' d d' condition edit ih =>
    refine .of_admits fun ha => ?_
    refine hc.with_condition condition fun s hr hd => ?_
    refine ih hd fun v hsv => hv v ?_
    rw [enter_negation ha hr]
    exact List.mem_append_right _ hsv

/-! ### Conditions alike run alike -/

theorem same_of_admits (h : e.Admits position →
      Run.Same (e.enter record position c) (e.enter record position c')) :
    Run.Same (e.enter record position c) (e.enter record position c') := by
  rcases e.admits_or_refuses position with ha | ⟨limit, hl, hle⟩
  · exact h ha
  · rw [enter_refused hl hle, enter_refused hl hle]
    exact ⟨rfl, rfl⟩

mutual

/-- **Two conditions alike run alike**. -/
theorem Alike.same {position : Position} {c c' : Condition} :
    e.Alike record position c c' →
      Run.Same (e.enter record position c) (e.enter record position c')
  | .refused hl hle => by
    rw [enter_refused hl hle, enter_refused hl hle]
    exact ⟨rfl, rfl⟩
  | .fault op role role' => same_of_admits fun ha => by
    rw [enter_fault ha role, enter_fault ha role']
    exact ⟨rfl, by simp [Run.trace, op]⟩
  | .leaf op role role' => same_of_admits fun ha => by
    rw [enter_leaf ha role, enter_leaf ha role']
    exact ⟨rfl, by simp [Run.trace, op]⟩
  | .join op role role' lists => same_of_admits fun ha => by
    rw [enter_join ha role, enter_join ha role']
    exact lists.same.visit position op
  | .negation op role role' conditions => same_of_admits fun ha => by
    rw [enter_negation ha role, enter_negation ha role']
    exact conditions.same.negate.visit position op

/-- Two lists alike run alike. -/
theorem AlikeLists.same {position : Position} {decisive : Bool} {index : Nat}
    {cs cs' : List Condition} : e.AlikeLists record position decisive index cs cs' →
    Run.Same (e.enterAll record position decisive index cs)
      (e.enterAll record position decisive index cs')
  | .nil => ⟨rfl, rfl⟩
  | .stop stop first => by
    have hfirst := first.same
    rw [enterAll_stop stop, enterAll_stop (hfirst.outcome ▸ stop)]
    exact hfirst
  | .next next first rest => by
    have hfirst := first.same
    rw [enterAll_next next, enterAll_next (hfirst.outcome ▸ next)]
    exact hfirst.after rest.same

end

/-! ### Runs of edited conditions -/

/-- Edits keep the root alike to itself. -/
theorem Alike.edits (h : Relation.ReflTransGen (e.Edit record c []) c c') :
    e.Alike record [] c c' := by
  induction h with
  | refl => exact .refl e record [] c
  | tail _ hedit ih => exact ih.edit hedit fun _ hv => hv

/-- **What is not visited cannot matter**. Any number of edits that the run of a condition does not
see leave its outcome as it is, and the tokens that it gives to the resolver. -/
theorem run_eq_of_edits (e : Evaluator) (record : Record) {c c' : Condition}
    (h : Relation.ReflTransGen (e.Edit record c []) c c') :
    (e.run record c').outcome = (e.run record c).outcome ∧
      (e.run record c').tokens = (e.run record c).tokens := by
  have hsame : Run.Same (e.run record c) (e.run record c') := (Alike.edits h).same
  exact ⟨hsame.outcome, Run.tokens_eq_of_trace_eq hsame.trace⟩

/-- Resolves the names of operators, and leaves all other tokens unrecognized. -/
def byName : Evaluator :=
  ⟨fun token => .ok ((OperatorKind.ofName? token).getD (.unrecognized token)), .loose, none⟩

/-- Settled by its first condition. -/
def settledFirst : Condition := .any [.negation (.ofToken "late"), .all [.ofToken "early"]]

/-- The same but for the list below the unrecognized token, and for the list after the first
condition. -/
def settledFirstEdited : Condition :=
  .any [.negation { Condition.ofToken "late" with conditions := some [.ofToken "due"] }]

theorem run_settledFirstEdited :
    Relation.ReflTransGen (byName.Edit .empty settledFirst []) settledFirst settledFirstEdited ∧
      (byName.run .empty settledFirstEdited).outcome = .ok true ∧
      (byName.run .empty settledFirstEdited).tokens = ["or", "not", "late"] := by
  have hvisits : (byName.run .empty settledFirst).visits =
      [⟨[], settledFirst⟩, ⟨[.item 0], .negation (.ofToken "late")⟩,
        ⟨[.operand, .item 0], .ofToken "late"⟩] := rfl
  have hsettled : byName.SettledAt .empty settledFirst [] ([] : List Condition).length :=
    ⟨settledFirst, true, _, _, hvisits ▸ List.mem_cons_self, rfl, rfl, rfl, by decide, by simp⟩
  have hrest : byName.Edit .empty settledFirst [] settledFirst
      (.any [.negation (.ofToken "late")]) := .rest hsettled rfl
  have hunneeded : byName.Edit .empty settledFirst [.operand, .item 0] (.ofToken "late")
      { Condition.ofToken "late" with conditions := some [.ofToken "due"] } :=
    .unneeded ⟨rfl, trivial⟩
  have hconditions : (Condition.any [.negation (.ofToken "late")]).conditions =
      some ([] ++ [.negation (.ofToken "late")]) := rfl
  have hbelow : byName.Edit .empty settledFirst [] (.any [.negation (.ofToken "late")])
      settledFirstEdited := .item hconditions (.operand rfl hunneeded)
  have h := (Relation.ReflTransGen.single hrest).tail hbelow
  exact ⟨h, run_eq_of_edits byName .empty h⟩

end Evaluator

end Conditions
