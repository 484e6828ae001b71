import Conditions.Proofs.Evaluation.Walk
import Conditions.Proofs.Resolution.Tables

/-!
# Strict tables

A strict table refuses the tokens without an operator that a lenient one leaves unrecognized, and
resolves all others as it does. So a run with a strict table is the run with the lenient one up to
the first node whose token is unrecognized there, and ends at that node: what the lenient run makes
of it afterwards, the token being false, is never seen.

`run_refusing` says so of any resolver and the one that refuses what it leaves unrecognized, and
`strict_run` of the two tables for some settings.
-/

namespace Conditions

/-- The resolver that refuses the tokens another leaves unrecognized. -/
def Resolver.refusing (resolver : Resolver) : Resolver := fun token =>
  match resolver token with
  | .ok (.unrecognized unknown) => .error (.unknown unknown)
  | other => other

theorem Resolver.refusing_of_unrecognized {resolver : Resolver} {text token : String}
    (h : resolver text = .ok (.unrecognized token)) :
    resolver.refusing text = .error (.unknown token) := by
  rw [refusing, h]

theorem Resolver.refusing_of_ne {resolver : Resolver} {text : String}
    (h : ∀ token, resolver text ≠ .ok (.unrecognized token)) :
    resolver.refusing text = resolver text := by
  unfold refusing
  split
  · next token hop => exact absurd hop (h token)
  · rfl

/-- One run goes as another up to the first node that has a fault, and ends there with it. -/
def Run.HaltedBy (fault? : Condition → Option EvaluationError) (r r' : Run) : Prop :=
  (∀ v ∈ r.visits, fault? v.node = none) ∧ r' = r ∨
    ∃ before v after error, r.visits = before ++ v :: after ∧
      (∀ u ∈ before, fault? u.node = none) ∧ fault? v.node = some error ∧
      r' = ⟨.error error, before ++ [v]⟩

namespace Run.HaltedBy

variable {fault? : Condition → Option EvaluationError} {r r' : Run} {vs : List Visit}

theorem after (hvs : ∀ v ∈ vs, fault? v.node = none) (h : r.HaltedBy fault? r') :
    (Run.after vs r).HaltedBy fault? (Run.after vs r') := by
  rcases h with ⟨clear, rfl⟩ | ⟨before, v, after, error, visits, clear, fault, rfl⟩
  · exact .inl ⟨List.forall_mem_append.mpr ⟨hvs, clear⟩, rfl⟩
  · refine .inr ⟨vs ++ before, v, after, error, ?_, List.forall_mem_append.mpr ⟨hvs, clear⟩, fault,
      ?_⟩
    · rw [visits_after, visits, List.append_assoc]
    · rw [Run.after, List.append_assoc]

theorem negate (h : r.HaltedBy fault? r') : r.negate.HaltedBy fault? r'.negate := by
  rcases h with ⟨clear, rfl⟩ | ⟨before, v, after, error, visits, clear, fault, rfl⟩
  · exact .inl ⟨clear, rfl⟩
  · exact .inr ⟨before, v, after, error, visits, clear, fault, rfl⟩

theorem eq_of_clear (h : r.HaltedBy fault? r') (clear : ∀ v ∈ r.visits, fault? v.node = none) :
    r' = r := by
  rcases h with ⟨-, heq⟩ | ⟨before, v, after, error, visits, -, fault, -⟩
  · exact heq
  · have hv : v ∈ r.visits := visits ▸ List.mem_append_right before List.mem_cons_self
    cases (clear v hv).symm.trans fault

theorem eq_of_first {before after : List Visit} {v : Visit} {error : EvaluationError}
    (h : r.HaltedBy fault? r') (visits : r.visits = before ++ v :: after)
    (clear : ∀ u ∈ before, fault? u.node = none) (fault : fault? v.node = some error) :
    r' = ⟨.error error, before ++ [v]⟩ := by
  rcases h with ⟨clear', -⟩ | ⟨before', v', after', error', visits', clear', fault', rfl⟩
  · have hv : v ∈ r.visits := visits ▸ List.mem_append_right before List.mem_cons_self
    cases (clear' v hv).symm.trans fault
  · -- neither node stands before the other, as each is the first with a fault
    rcases List.append_eq_append_iff.mp (visits.symm.trans visits') with
      ⟨between, rfl, hrest⟩ | ⟨between, rfl, hrest⟩
    · cases between with
      | nil =>
        cases hrest
        cases fault.symm.trans fault'
        rw [List.append_nil]
      | cons w between =>
        cases hrest
        cases (clear' v (List.mem_append_right before List.mem_cons_self)).symm.trans fault
    · cases between with
      | nil =>
        cases hrest
        cases fault.symm.trans fault'
        rw [List.append_nil]
      | cons w between =>
        cases hrest
        cases (clear v' (List.mem_append_right before' List.mem_cons_self)).symm.trans fault'

end Run.HaltedBy

namespace Evaluator

/-- The evaluator that refuses the tokens another leaves unrecognized. -/
def refusing (e : Evaluator) : Evaluator := { e with resolver := e.resolver.refusing }

/-- The fault of a node whose token is left unrecognized, when such tokens are refused. -/
def unknown? (e : Evaluator) (c : Condition) : Option EvaluationError :=
  match e.resolver c.op with
  | .ok (.unrecognized token) => some (.resolve (.unknown token))
  | _ => none

variable {e : Evaluator} {record : Record} {position : Position} {c : Condition}

theorem unknown?_eq_none_iff :
    e.unknown? c = none ↔ ∀ token, e.resolver c.op ≠ .ok (.unrecognized token) := by
  unfold unknown?
  cases e.resolver c.op with
  | error error => simp
  | ok kind => cases kind <;> simp

theorem role_refusing (h : e.unknown? c = none) : e.refusing.role record c = e.role record c := by
  have hop : e.refusing.resolver c.op = e.resolver c.op :=
    Resolver.refusing_of_ne (unknown?_eq_none_iff.mp h)
  unfold role
  rw [hop]
  rfl

theorem role_refusing_of_unknown {error : EvaluationError} (h : e.unknown? c = some error) :
    e.refusing.role record c = .fault error ∧ e.role record c = .leaf false := by
  unfold unknown? at h
  split at h
  · next token hop =>
    cases h
    have hop' : e.refusing.resolver c.op = .error (.unknown token) :=
      Resolver.refusing_of_unrecognized hop
    simp [role, hop, hop']
  · cases h

/-- **A run that refuses unrecognized tokens** is the run that does not, halted at the first. -/
theorem halted_enter (e : Evaluator) (record : Record) (position : Position) (c : Condition) :
    (e.enter record position c).HaltedBy e.unknown? (e.refusing.enter record position c) := by
  -- a node without unknown token is entered alike
  have single {v : Visit} (h : e.unknown? v.node = none) : ∀ u ∈ [v], e.unknown? u.node = none := by
    simpa using h
  have known {c : Condition} {role : Role} (hr : e.role record c = role)
      (hne : role ≠ .leaf false) : e.unknown? c = none := by
    rw [Option.eq_none_iff_forall_ne_some]
    intro error h
    exact hne (hr.symm.trans (role_refusing_of_unknown h).2)
  apply walk_induction e record
    (P := fun position c r => r.HaltedBy e.unknown? (e.refusing.enter record position c))
    (Q := fun position decisive index cs r =>
      r.HaltedBy e.unknown? (e.refusing.enterAll record position decisive index cs))
  case refused =>
    intro position c limit hl hle
    rw [enter_refused (e := e.refusing) hl hle]
    exact .inl ⟨by simp, rfl⟩
  case fault =>
    intro position c error ha hr
    have hk := known hr (by simp)
    rw [enter_fault (e := e.refusing) ha ((role_refusing hk).trans hr)]
    exact .inl ⟨single hk, rfl⟩
  case leaf =>
    intro position c verdict ha hr
    cases hk : e.unknown? c with
    | none =>
      rw [enter_leaf (e := e.refusing) ha ((role_refusing hk).trans hr)]
      exact .inl ⟨single hk, rfl⟩
    | some error =>
      rw [enter_fault (e := e.refusing) ha (role_refusing_of_unknown hk).1]
      exact .inr ⟨[], _, [], error, rfl, by simp, hk, rfl⟩
  case join =>
    intro position c decisive cs ha hr ih
    have hk := known hr (by simp)
    rw [enter_join (e := e.refusing) ha ((role_refusing hk).trans hr)]
    exact ih.after (single hk)
  case negation =>
    intro position c d ha hr ih
    have hk := known hr (by simp)
    rw [enter_negation (e := e.refusing) ha ((role_refusing hk).trans hr)]
    exact ih.negate.after (single hk)
  case nil =>
    intro position decisive index
    rw [enterAll_nil]
    exact .inl ⟨by simp, rfl⟩
  case stop =>
    intro position decisive index c cs ho ih
    rw [enterAll_stop]
    · exact ih
    · rcases ih with ⟨-, heq⟩ | ⟨before, v, after, error, -, -, -, heq⟩
      · rwa [heq]
      · simp [heq]
  case next =>
    intro position decisive index c cs ho ih ihs
    rcases ih with ⟨clear, heq⟩ | ⟨before, v, after, error, visits, clear, fault, heq⟩
    · rw [enterAll_next (heq.symm ▸ ho), heq]
      exact ihs.after clear
    · -- the list is left at the unknown token, whatever comes after it
      rw [enterAll_stop (by simp [heq]), heq]
      refine .inr ⟨before, v,
        after ++ (e.enterAll record position decisive (index + 1) cs).visits, error, ?_, clear,
        fault, rfl⟩
      rw [Run.visits_after, visits, List.append_assoc, List.cons_append]

/-- A run that refuses unrecognized tokens is the run that does not if there are none, and ends at
the first of them otherwise. -/
theorem run_refusing (resolver : Resolver) (ordering : OrderingMode) (maxDepth : Option Nat)
    (record : Record) (c : Condition) :
    ((∀ v ∈ (run ⟨resolver, ordering, maxDepth⟩ record c).visits,
        ∀ token, resolver v.node.op ≠ .ok (.unrecognized token)) →
      run ⟨resolver.refusing, ordering, maxDepth⟩ record c =
        run ⟨resolver, ordering, maxDepth⟩ record c) ∧
    ∀ before v after token,
      (run ⟨resolver, ordering, maxDepth⟩ record c).visits = before ++ v :: after →
      (∀ u ∈ before, ∀ token, resolver u.node.op ≠ .ok (.unrecognized token)) →
      resolver v.node.op = .ok (.unrecognized token) →
      run ⟨resolver.refusing, ordering, maxDepth⟩ record c =
        ⟨.error (.resolve (.unknown token)), before ++ [v]⟩ := by
  have hhalted := halted_enter ⟨resolver, ordering, maxDepth⟩ record [] c
  refine ⟨fun hknown => ?_, fun before v after token hvisits hbefore htoken => ?_⟩
  · exact hhalted.eq_of_clear fun v hv => unknown?_eq_none_iff.mpr (hknown v hv)
  · refine hhalted.eq_of_first hvisits
      (fun u hu => unknown?_eq_none_iff.mpr (hbefore u hu)) ?_
    simp only [unknown?, htoken]

end Evaluator

namespace AliasTable

/-- A table with another strictness. -/
def withStrict (strict : Bool) (table : AliasTable) : AliasTable := { table with strict := strict }

variable {order : Enumeration} {settings : ResolverSettings} {table : AliasTable}

/-- Strictness is no matter when a table is built. -/
theorem ofSettingsIn_strict (order : Enumeration) (settings : ResolverSettings) (strict : Bool) :
    ofSettingsIn order { settings with strict := strict } =
      (ofSettingsIn order settings).map (withStrict strict) := by
  unfold ofSettingsIn
  cases addAliases builtin.entries settings.aliases with
  | error error => rfl
  | ok entries =>
    simp only [bind, Except.bind]
    cases foldIf order settings.caseInsensitive entries <;> rfl

/-- A token that a lenient table leaves unrecognized is left so as it is, but for blanks. -/
theorem eq_trim_of_resolve (h : ofSettingsIn order settings = .ok table) {text token : String}
    (hresolve : table.resolve text = .ok (.unrecognized token)) : token = trim text := by
  unfold resolve at hresolve
  split at hresolve
  · cases hresolve
  · split at hresolve
    · next hfind =>
      cases hresolve
      simpa [OperatorKind.known] using mem_known_of_find? h hfind
    · split at hresolve
      · cases hresolve
      · cases hresolve
        rfl

/-- A strict table refuses what the lenient one leaves unrecognized. -/
theorem resolve_withStrict (h : ofSettingsIn order settings = .ok table) :
    (table.withStrict true).resolve = (table.withStrict false).resolve.refusing := by
  funext text
  by_cases hblank : trim text = ""
  · rw [Resolver.refusing_of_ne] <;> simp [resolve_blank, hblank]
  · cases hfind : table.entries.find? (table.sought text) with
    | none =>
      have hresolve (strict : Bool) : (table.withStrict strict).resolve text =
          if strict then .error (.unknown (trim text)) else .ok (.unrecognized (trim text)) :=
        resolve_of_find?_eq_none hblank hfind
      rw [Resolver.refusing_of_unrecognized (hresolve false), hresolve true]
      rfl
    | some kind =>
      have hresolve (strict : Bool) : (table.withStrict strict).resolve text = .ok kind :=
        resolve_of_find? hblank hfind
      rw [Resolver.refusing_of_ne, hresolve, hresolve]
      rintro token htoken
      cases (hresolve false).symm.trans htoken
      simpa [OperatorKind.known] using mem_known_of_find? h hfind

/-- The strict table refuses what the lenient one for the same settings leaves unrecognized. -/
theorem resolve_strict {strict lenient : AliasTable}
    (hs : ofSettingsIn order { settings with strict := true } = .ok strict)
    (hl : ofSettingsIn order { settings with strict := false } = .ok lenient) :
    strict.resolve = lenient.resolve.refusing := by
  have hstrict := ofSettingsIn_strict order { settings with strict := false } true
  rw [hs, hl] at hstrict
  cases hstrict
  have hlenient : lenient = lenient.withStrict false := by
    obtain ⟨-, -, -, -, hfalse⟩ := ofSettingsIn_eq_ok_iff.mp hl
    obtain ⟨entries, folded, _⟩ := lenient
    cases hfalse
    rfl
  rw [resolve_withStrict hl, ← hlenient]

/-- **Strict and lenient tables agree until the first unknown token**. Both are built from the same
settings. If the lenient run visits no unrecognized token, the strict run is the same; else the
strict run goes as the lenient one up to the first, and ends there as unknown. -/
theorem strict_run (order : Enumeration) (settings : ResolverSettings) :
    ((∃ strict, ofSettingsIn order { settings with strict := true } = .ok strict) ↔
      ∃ lenient, ofSettingsIn order { settings with strict := false } = .ok lenient) ∧
    ∀ strict lenient, ofSettingsIn order { settings with strict := true } = .ok strict →
      ofSettingsIn order { settings with strict := false } = .ok lenient →
      ∀ (ordering : OrderingMode) (maxDepth : Option Nat) (record : Record) (c : Condition),
        ((∀ v ∈ ((⟨lenient.resolve, ordering, maxDepth⟩ : Evaluator).run record c).visits,
            ∀ token, lenient.resolve v.node.op ≠ .ok (.unrecognized token)) →
          (⟨strict.resolve, ordering, maxDepth⟩ : Evaluator).run record c =
            (⟨lenient.resolve, ordering, maxDepth⟩ : Evaluator).run record c) ∧
        ∀ before v after,
          ((⟨lenient.resolve, ordering, maxDepth⟩ : Evaluator).run record c).visits =
            before ++ v :: after →
          (∀ u ∈ before, ∀ token, lenient.resolve u.node.op ≠ .ok (.unrecognized token)) →
          (∃ token, lenient.resolve v.node.op = .ok (.unrecognized token)) →
          (⟨strict.resolve, ordering, maxDepth⟩ : Evaluator).run record c =
            ⟨.error (.resolve (.unknown (trim v.node.op))), before ++ [v]⟩ := by
  refine ⟨?_, fun strict lenient hs hl ordering maxDepth record c => ?_⟩
  · rw [ofSettingsIn_strict order settings true, ofSettingsIn_strict order settings false]
    cases ofSettingsIn order settings <;> simp [Except.map]
  · obtain ⟨hclear, hfirst⟩ :=
      Evaluator.run_refusing lenient.resolve ordering maxDepth record c
    rw [resolve_strict hs hl]
    refine ⟨hclear, fun before v after hvisits hbefore ⟨token, htoken⟩ => ?_⟩
    rw [← eq_trim_of_resolve hl htoken]
    exact hfirst before v after token hvisits hbefore htoken

/-- Holds by its second condition, if the token of the first is let pass. -/
def doubtful : Condition := .any [.ofToken " late ", .all []]

theorem strict_run_doubtful :
    ∃ strict lenient, ofSettingsIn .inOrder { strict := true } = .ok strict ∧
      ofSettingsIn .inOrder { strict := false } = .ok lenient ∧
      ((⟨lenient.resolve, .loose, none⟩ : Evaluator).run .empty doubtful).outcome = .ok true ∧
      (⟨strict.resolve, .loose, none⟩ : Evaluator).run .empty doubtful =
        ⟨.error (.resolve (.unknown "late")),
          [⟨[], doubtful⟩, ⟨[.item 0], .ofToken " late "⟩]⟩ := by
  obtain ⟨strict, hs⟩ : ∃ strict, ofSettingsIn .inOrder { strict := true } = .ok strict := ⟨_, rfl⟩
  obtain ⟨lenient, hl⟩ : ∃ lenient, ofSettingsIn .inOrder { strict := false } = .ok lenient :=
    ⟨_, rfl⟩
  have hrun : (⟨lenient.resolve, .loose, none⟩ : Evaluator).run .empty doubtful =
      ⟨.ok true, [⟨[], doubtful⟩, ⟨[.item 0], .ofToken " late "⟩, ⟨[.item 1], .all []⟩]⟩ := by
    cases hl
    rfl
  have hor : lenient.resolve "or" = .ok .or := by
    cases hl
    rfl
  have hlate : lenient.resolve " late " = .ok (.unrecognized "late") := by
    cases hl
    rfl
  obtain ⟨-, hruns⟩ := strict_run .inOrder {}
  obtain ⟨-, hfirst⟩ := hruns strict lenient hs hl .loose none .empty doubtful
  refine ⟨strict, lenient, hs, hl, by rw [hrun], ?_⟩
  refine hfirst [⟨[], doubtful⟩] ⟨[.item 0], .ofToken " late "⟩ _ (by rw [hrun]; rfl) ?_ ⟨_, hlate⟩
  intro u hu token htoken
  rw [List.mem_singleton.mp hu] at htoken
  cases hor.symm.trans htoken

end AliasTable

end Conditions
