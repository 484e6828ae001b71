import Conditions.Proofs.Evaluation.DepthLimit
import Conditions.Proofs.Settings.Defaults
import Conditions.Proofs.Settings.Overlays

/-!
# Limits of depth that settings can have

Settings are come by from the defaults or a text, and by variables that are written over them
(`Settings.Admitted`). On each of these ways a limit of depth is read by a reader of its own, and
each reader refuses zero and numbers of more than 64 bits. So a limit that settings come to have is
a number of 64 bits other than zero, and since the root of a condition is at depth one, no settings
refuse to enter it (`Settings.Admitted.limits`).
-/

namespace Conditions

open Yaml (Document Node Decode)

namespace Yaml.Decode

variable {α : Type} {P : α → Prop}

theorem gives_natural (doc : Document) (node : Node) : Gives (natural doc node) (· < 2 ^ 64) := by
  refine (gives_true _).bind fun target _ => ?_
  cases target with
  | scalar s =>
    dsimp only
    split
    · split
      · next i hi =>
        obtain ⟨-, hfits⟩ := Option.filter_eq_some_iff.mp hi
        have hlt : i < 2 ^ 64 := by
          simp only [fitsWord, Bool.and_eq_true, decide_eq_true_eq] at hfits
          exact hfits.2
        exact gives_pure (by omega)
      · exact gives_throw _
    · exact gives_throw _
  | reference | sequence | mapping => exact gives_throw _

/-- What is given where something may be absent has the property of what is read there. -/
theorem gives_optional (doc : Document) {read : Node → Decode α} (node : Node)
    (h : ∀ node, Gives (read node) P) :
    Gives (optional doc read node) fun a? => ∀ a, a? = some a → P a := by
  have hread (node : Node) : Gives (return some (← read node)) fun a? => ∀ a, a? = some a → P a :=
    (h node).bind fun a ha => gives_pure fun _ hsome => Option.some.inj hsome ▸ ha
  refine (gives_true _).bind fun target _ => ?_
  cases target with
  | scalar s =>
    refine (gives_true _).bind fun absent _ => ?_
    cases absent with
    | true => exact gives_pure nofun
    | false => exact hread _
  | reference | sequence | mapping => exact hread _

end Yaml.Decode

namespace Settings

/-- Settings that can be come by. -/
inductive Admitted : Settings → Prop where
  /-- The defaults. -/
  | default : Admitted {}
  /-- Settings in a text. -/
  | parsed {text : String} {s : Settings} : Settings.parse text = .ok s → Admitted s
  /-- Settings in a file. -/
  | loaded {files : Files} {path : String} {s : Settings} :
    Settings.load files path = .ok s → Admitted s
  /-- Settings with variables written over them. -/
  | overridden {s s' : Settings} {lookup : String → Option String} :
    Admitted s → s.override lookup = .ok s' → Admitted s'

/-- The limit of depth, if there is one, is a number of 64 bits other than zero. -/
def HasRoom (s : Settings) : Prop := ∀ n, s.maxDepth = some n → 1 ≤ n ∧ n < 2 ^ 64

/-! ### Limits in texts -/

/-- The limit of depth in a document is a number of 64 bits. -/
theorem gives_ofNode_lt (doc : Document) (node : Node) :
    Decode.Gives (ofNode doc node) fun s => ∀ n, s.maxDepth = some n → n < 2 ^ 64 := by
  refine Decode.gives_shape nofun fun name field value _ _ => ?_
  cases field with
  | maxDepth =>
    exact (Decode.gives_optional doc value (Decode.gives_natural doc)).bind fun depth hdepth =>
      Decode.gives_pure fun _ _ => hdepth
  | ordering | resolver =>
    exact (Decode.gives_true _).bind fun _ _ => Decode.gives_pure fun _ hs => hs

theorem ensures_parseYaml_hasRoom (text : String) : Ensures (parseYaml text) HasRoom := by
  refine ensures_parseYaml_of nofun fun doc s _ hs hzero n hn => ?_
  have hlt := doc.ensures_decode (gives_ofNode_lt doc doc.root) s hs
  refine ⟨Nat.pos_of_ne_zero ?_, hlt n hn⟩
  rintro rfl
  exact hzero hn

theorem ensures_parse_hasRoom (text : String) : Ensures (Settings.parse text) HasRoom :=
  (ensures_parseYaml_hasRoom text).mapError _

theorem ensures_load_hasRoom (files : Files) (path : String) :
    Ensures (Settings.load files path) HasRoom :=
  (ensures_true _).bind fun text _ => ensures_parse_hasRoom text

/-! ### Limits in variables -/

/-- Variables keep a limit what a limit can be, or set another such. -/
theorem HasRoom.override {s s' : Settings} {lookup : String → Option String} (h : s.HasRoom)
    (hs' : s.override lookup = .ok s') : s'.HasRoom := by
  have hdepth := (override_eq_ok_iff.mp hs').maxDepth
  intro n hn
  generalize lookup depthVariable = text? at hdepth
  cases text? with
  | none => exact h n (overlaid_none_iff.mp hdepth ▸ hn)
  | some text => exact (parseDepth_eq_ok_iff.mp (overlaid_some_iff.mp hdepth)).bounds n hn

/-- A numeral of zero or of a number of more than 64 bits is refused, and it is the error unless the
order of operands is refused before. -/
theorem override_refused (old : Settings) {lookup : String → Option String} {text : String}
    {n : Nat} (hset : lookup depthVariable = some text) (hn : IsNatural text.toList n)
    (hout : n = 0 ∨ 2 ^ 64 ≤ n) :
    ∃ error, old.override lookup = .error error ∧
      ((∀ name, lookup orderingVariable = some name → ∃ mode, NamesOrdering name mode) →
        error = .badDepth (trim text)) := by
  have hrefused : ¬SettingVariable.maxDepth.Admits text := by
    rintro ⟨depth, hdepth⟩
    obtain ⟨-, hpos, hfits⟩ := hn.namesDepth_iff.mp hdepth
    omega
  cases hresult : old.override lookup with
  | ok new =>
    have hadmits := exists_override_iff_admits.mp ⟨new, hresult⟩
    exact absurd (hadmits .maxDepth text hset) hrefused
  | error error =>
    refine ⟨error, rfl, fun hordering => ?_⟩
    have hfirst : FirstRefused lookup .maxDepth text := by
      refine ⟨hset, hrefused, [.ordering], _, rfl, fun w hw => ?_⟩
      cases List.mem_singleton.mp hw
      exact hordering
    have hbad : old.override lookup = .error (.badDepth (trim text)) :=
      override_eq_error_iff_firstRefused.mpr ⟨_, text, hfirst, rfl⟩
    exact Except.error.inj (hresult.symm.trans hbad)

/-! ### Limits of settings -/

theorem Admitted.hasRoom {s : Settings} (h : s.Admitted) : s.HasRoom := by
  induction h with
  | default => exact nofun
  | parsed hs => exact ensures_parse_hasRoom _ _ hs
  | loaded hs => exact ensures_load_hasRoom _ _ _ hs
  | overridden _ hs ih => exact ih.override hs

/-- Where there is room for the root, a walk visits it. -/
theorem HasRoom.admits {s : Settings} (h : s.HasRoom) (resolver : Resolver) :
    (s.evaluator resolver).Admits [] := fun limit hlimit => (h limit hlimit).1

/-- **No settings forbid every evaluation.** -/
theorem Admitted.limits {s : Settings} (h : s.Admitted) :
    (∀ n, s.maxDepth = some n → 1 ≤ n ∧ n < 2 ^ 64) ∧
    -- a numeral out of these bounds is never taken for another number
    (∀ (old : Settings) (lookup : String → Option String) text n,
      lookup depthVariable = some text → IsNatural text.toList n → n = 0 ∨ 2 ^ 64 ≤ n →
      ∃ error, old.override lookup = .error error ∧
        ((∀ name, lookup orderingVariable = some name → ∃ mode, NamesOrdering name mode) →
          error = .badDepth (trim text))) ∧
    -- so the root is entered
    (∀ resolver record c, ((s.evaluator resolver).run record c).tokens.head? = some c.op ∧
      (c.depth = 1 → ∀ limit, (s.evaluator resolver).evaluate record c ≠ .error (.tooDeep limit)))
    := by
  have hroom := h.hasRoom
  refine ⟨hroom, fun old lookup text n hset hn hout => override_refused old hset hn hout,
    fun resolver record c => ⟨?_, fun hc => ?_⟩⟩
  · obtain ⟨vs, hvs⟩ : ∃ vs, ((s.evaluator resolver).run record c).visits = ⟨[], c⟩ :: vs :=
      Evaluator.visits_enter_eq_cons (hroom.admits resolver)
    rw [Run.tokens, hvs]
    rfl
  · refine Evaluator.outcome_ne_tooDeep fun limit hlimit => ?_
    rw [hc]
    exact (hroom limit hlimit).1

/-- A limit from a text and another from a variable over it; a variable that says zero. -/
theorem limits_seven : Admitted { maxDepth := some 7 } ∧ (1 ≤ 7 ∧ 7 < 2 ^ 64) ∧
    (∃ error, override {} (fun name => [(depthVariable, " +00 ")].lookup name) = .error error) ∧
    ((evaluator { maxDepth := some 7 } AliasTable.builtin.resolve).run .empty
      ⟨"and", none, none, none, none⟩).tokens.head? = some "and" := by
  have hparsed : Settings.parse "max_depth: 3" = .ok { maxDepth := some 3 } :=
    toOption_eq_some_iff.mp (by decide +kernel)
  have hover : override { maxDepth := some 3 } (fun name => [(depthVariable, " 07")].lookup name) =
      .ok { maxDepth := some 7 } := toOption_eq_some_iff.mp (by decide +kernel)
  have hadmitted : Admitted { maxDepth := some 7 } := .overridden (.parsed hparsed) hover
  have hzero : IsNatural " +00 ".toList 0 :=
    ⟨[' '], ['+', '0', '0'], [' '], rfl, List.forall_mem_singleton.mpr rfl,
      List.forall_mem_singleton.mpr rfl,
      .parts .plus (Decimal.areDigits_iff_all.mpr rfl) (List.cons_ne_nil _ _)⟩
  obtain ⟨hbounds, hrefused, hroot⟩ := hadmitted.limits
  obtain ⟨error, herror, -⟩ := hrefused {} (fun name => [(depthVariable, " +00 ")].lookup name)
    " +00 " 0 rfl hzero (.inl rfl)
  exact ⟨hadmitted, hbounds 7 rfl, ⟨error, herror⟩, (hroot _ _ ⟨"and", none, none, none, none⟩).1⟩

end Settings

end Conditions
