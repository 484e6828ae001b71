import Conditions.CommandLine
import Conditions.Proofs.CommandLine.Variables
import Conditions.Proofs.Settings.Defaults
import Conditions.Proofs.Settings.Overrides

/-!
# The stages of an evaluation

An evaluation loads settings, writes the variables over them, loads the condition and the record,
builds the table of aliases and evaluates. Each of these stages passes or fails with a message, and
what it does is told without the others: the condition is loaded from its file or not, whatever the
settings are. Only the last two need results of others, among them the settings in effect
(`Effective`).

`ending_of_isAskedBy` says how a run ends: with the verdict if all stages pass, and else with the
message of the first that fails. The run is followed from stage to stage in `comesTo_verdict`. Since
a stage does not both pass and fail, and fails with one message only, there is one stage that fails
first (`FailsFirst.unique`), and one thing that the run comes to (`ComesTo.unique`).
-/

namespace Conditions

/-- An evaluation that is asked for, with all that it may read. -/
structure Invocation where
  /-- The texts of files. -/
  files : Files
  /-- The variables of the process. -/
  process : Environment
  /-- The text of the file of variables, if there is one. -/
  variableFile : Option String
  /-- The path of the condition. -/
  condition : String
  /-- The path of the record. -/
  data : String
  /-- The path of the settings, if it is given. -/
  config : Option String
  /-- The order of operands, if it is given. -/
  ordering : Option OrderingMode

namespace Invocation

/-- Some arguments ask for the evaluation. -/
def IsAskedBy (i : Invocation) (arguments : List String) : Prop :=
  Command.ofArguments? arguments = some (.evaluate i.condition i.data i.config i.ordering)

/-- How a run with some arguments ends. -/
def ending (i : Invocation) (arguments : List String) : Ending :=
  runArguments i.files (i.process.withFile i.variableFile) arguments

/-! ### Settings in effect -/

/-- The value of a variable; the process comes before the file. -/
def value? (i : Invocation) (name : String) : Option String :=
  (i.process.lookup name).or ((i.process.supplied i.variableFile).lookup name)

/-- The settings that variables are written over. -/
inductive Base (i : Invocation) : Settings → Prop
  /-- Without a file, the defaults. -/
  | default : i.config = none → Base i {}
  /-- With a file, what it holds. -/
  | file {path : String} {settings : Settings} : i.config = some path →
    Settings.load i.files path = .ok settings → Base i settings

/-- The file of settings leads along some names. -/
def Says (i : Invocation) (path : List String) : Prop :=
  ∃ file text, i.config = some file ∧ i.files file = .ok text ∧ Settings.Says text path

/-- What is written over some settings, layer by layer. -/
structure Layered (i : Invocation) (base settings : Settings) : Prop where
  /-- The order of operands is that of the arguments, and else that of its variable. -/
  ordering : i.ordering = some settings.ordering ∨ i.ordering = none ∧
    Overlaid parseOrdering base.ordering (i.value? orderingVariable) settings.ordering
  maxDepth : Overlaid parseDepth base.maxDepth (i.value? depthVariable) settings.maxDepth
  strict : Overlaid (parseFlag strictVariable) base.resolver.strict (i.value? strictVariable)
    settings.resolver.strict
  caseInsensitive : Overlaid (parseFlag caseVariable) base.resolver.caseInsensitive
    (i.value? caseVariable) settings.resolver.caseInsensitive
  /-- Aliases come from the file alone. -/
  aliases : settings.resolver.aliases = base.resolver.aliases

/-- The settings in effect. -/
def Effective (i : Invocation) (settings : Settings) : Prop :=
  ∃ base, i.Base base ∧ i.Layered base settings

/-- What building the table of aliases comes to. -/
def Builds (i : Invocation) (result : Except SettingsError AliasTable) : Prop :=
  ∃ settings, i.Effective settings ∧ settings.aliasTable = result

/-- What evaluating the condition on the record comes to. -/
def Evaluates (i : Invocation) (result : Except EvaluationError Bool) : Prop :=
  ∃ settings c record table, i.Effective settings ∧
    Condition.load i.files i.condition = .ok c ∧ Record.load i.files i.data = .ok record ∧
    settings.aliasTable = .ok table ∧
    (settings.evaluator table.resolve).evaluate record c = result

end Invocation

/-! ### Stages -/

/-- The stages of an evaluation. -/
inductive Stage where
  /-- Loads the settings. -/
  | config
  /-- Writes the variables over the settings. -/
  | overrides
  /-- Loads the condition. -/
  | condition
  /-- Loads the record. -/
  | record
  /-- Builds the table of aliases. -/
  | aliases
  /-- Evaluates the condition on the record. -/
  | evaluation
  deriving DecidableEq

namespace Stage

/-- The stages in the order in which they come. -/
def all : List Stage := [.config, .overrides, .condition, .record, .aliases, .evaluation]

/-- The stages before a stage. -/
def earlier (stage : Stage) : List Stage := all.takeWhile (· ≠ stage)

theorem mem_all (stage : Stage) : stage ∈ all := by
  cases stage <;> decide

/-- Of two stages one is earlier. -/
theorem earlier_trichotomy (stage stage' : Stage) :
    stage ∈ stage'.earlier ∨ stage = stage' ∨ stage' ∈ stage.earlier := by
  cases stage <;> cases stage' <;> decide

end Stage

/-- What is said of a file that cannot be loaded. -/
def failedToLoad (kind path : String) : String := s!"Failed to load {kind} {path}"

namespace Invocation

/-- A stage passes. -/
def Passes (i : Invocation) : Stage → Prop
  | .config => ∃ base, i.Base base
  | .overrides => variableErrors i.value? = []
  | .condition => ∃ c, Condition.load i.files i.condition = .ok c
  | .record => ∃ record, Record.load i.files i.data = .ok record
  | .aliases => ∃ table, i.Builds (.ok table)
  | .evaluation => ∃ verdict, i.Evaluates (.ok verdict)

/-- A stage fails with a message. -/
def Fails (i : Invocation) (message : String) : Stage → Prop
  | .config => ∃ path failure, i.config = some path ∧
    Settings.load i.files path = .error failure ∧ message = failedToLoad "config" path
  | .overrides => ∃ error, (variableErrors i.value?).head? = some error ∧ message = error.message
  | .condition => ∃ failure, Condition.load i.files i.condition = .error failure ∧
    message = failedToLoad "condition" i.condition
  | .record => ∃ failure, Record.load i.files i.data = .error failure ∧
    message = failedToLoad "record" i.data
  | .aliases => ∃ error, i.Builds (.error error) ∧ message = error.message
  | .evaluation => ∃ error, i.Evaluates (.error error) ∧ message = error.message

/-- A stage fails with a message, and the stages before it pass. -/
def FailsFirst (i : Invocation) (stage : Stage) (message : String) : Prop :=
  (∀ stage' ∈ stage.earlier, i.Passes stage') ∧ i.Fails message stage

variable {i : Invocation} {stage stage' : Stage} {message message' : String}

/-! ### Each stage does one thing -/

theorem Base.unique {base base' : Settings} (h : i.Base base) (h' : i.Base base') :
    base = base' := by
  cases h with
  | default hnone =>
    cases h' with
    | default => rfl
    | file hpath => exact absurd (hnone.symm.trans hpath) nofun
  | file hpath hload =>
    cases h' with
    | default hnone => exact absurd (hnone.symm.trans hpath) nofun
    | file hpath' hload' =>
      cases hpath.symm.trans hpath'
      exact Except.ok.inj (hload.symm.trans hload')

theorem Layered.unique {base settings settings' : Settings} (h : i.Layered base settings)
    (h' : i.Layered base settings') : settings = settings' := by
  have hordering : settings.ordering = settings'.ordering := by
    rcases h.ordering with hgiven | ⟨hnone, hset⟩ <;>
      rcases h'.ordering with hgiven' | ⟨hnone', hset'⟩
    · exact Option.some.inj (hgiven.symm.trans hgiven')
    · exact absurd (hgiven.symm.trans hnone') nofun
    · exact absurd (hnone.symm.trans hgiven') nofun
    · exact hset.unique hset'
  obtain ⟨ordering, maxDepth, strict, caseInsensitive, aliases⟩ := settings
  obtain ⟨ordering', maxDepth', strict', caseInsensitive', aliases'⟩ := settings'
  obtain rfl : maxDepth = maxDepth' := h.maxDepth.unique h'.maxDepth
  obtain rfl : strict = strict' := h.strict.unique h'.strict
  obtain rfl : caseInsensitive = caseInsensitive' := h.caseInsensitive.unique h'.caseInsensitive
  obtain rfl : aliases = aliases' := h.aliases.trans h'.aliases.symm
  obtain rfl : ordering = ordering' := hordering
  rfl

theorem Effective.unique {settings settings' : Settings} (h : i.Effective settings)
    (h' : i.Effective settings') : settings = settings' := by
  obtain ⟨base, hbase, hlayered⟩ := h
  obtain ⟨base', hbase', hlayered'⟩ := h'
  obtain rfl := hbase.unique hbase'
  exact hlayered.unique hlayered'

theorem Builds.unique {result result' : Except SettingsError AliasTable} (h : i.Builds result)
    (h' : i.Builds result') : result = result' := by
  obtain ⟨settings, heffective, htable⟩ := h
  obtain ⟨settings', heffective', htable'⟩ := h'
  obtain rfl := heffective.unique heffective'
  exact htable.symm.trans htable'

theorem Evaluates.unique {result result' : Except EvaluationError Bool} (h : i.Evaluates result)
    (h' : i.Evaluates result') : result = result' := by
  obtain ⟨settings, c, record, table, heffective, hc, hrecord, htable, hresult⟩ := h
  obtain ⟨settings', c', record', table', heffective', hc', hrecord', htable', hresult'⟩ := h'
  obtain rfl := heffective.unique heffective'
  cases hc.symm.trans hc'
  cases hrecord.symm.trans hrecord'
  cases htable.symm.trans htable'
  exact hresult.symm.trans hresult'

theorem Passes.not_fails (h : i.Passes stage) : ¬ i.Fails message stage := by
  intro h'
  cases stage with
  | config =>
    obtain ⟨path, failure, hpath, hload, -⟩ := h'
    obtain ⟨base, hnone | ⟨hpath', hload'⟩⟩ := h
    · exact absurd (hnone.symm.trans hpath) nofun
    · cases hpath.symm.trans hpath'
      exact absurd (hload.symm.trans hload') nofun
  | overrides =>
    obtain ⟨error, hhead, -⟩ := h'
    rw [show variableErrors i.value? = [] from h] at hhead
    cases hhead
  | condition =>
    obtain ⟨failure, hload, -⟩ := h'
    obtain ⟨c, hload'⟩ := h
    exact absurd (hload.symm.trans hload') nofun
  | record =>
    obtain ⟨failure, hload, -⟩ := h'
    obtain ⟨record, hload'⟩ := h
    exact absurd (hload.symm.trans hload') nofun
  | aliases =>
    obtain ⟨error, hbuilds, -⟩ := h'
    obtain ⟨table, hbuilds'⟩ := h
    exact absurd (hbuilds.unique hbuilds') nofun
  | evaluation =>
    obtain ⟨error, hevaluates, -⟩ := h'
    obtain ⟨verdict, hevaluates'⟩ := h
    exact absurd (hevaluates.unique hevaluates') nofun

theorem Fails.unique (h : i.Fails message stage) (h' : i.Fails message' stage) :
    message = message' := by
  cases stage with
  | config =>
    obtain ⟨path, -, hpath, -, rfl⟩ := h
    obtain ⟨path', -, hpath', -, rfl⟩ := h'
    cases hpath.symm.trans hpath'
    rfl
  | overrides =>
    obtain ⟨error, hhead, rfl⟩ := h
    obtain ⟨error', hhead', rfl⟩ := h'
    cases hhead.symm.trans hhead'
    rfl
  | condition =>
    obtain ⟨-, -, rfl⟩ := h
    obtain ⟨-, -, rfl⟩ := h'
    rfl
  | record =>
    obtain ⟨-, -, rfl⟩ := h
    obtain ⟨-, -, rfl⟩ := h'
    rfl
  | aliases =>
    obtain ⟨error, hbuilds, rfl⟩ := h
    obtain ⟨error', hbuilds', rfl⟩ := h'
    cases hbuilds.unique hbuilds'
    rfl
  | evaluation =>
    obtain ⟨error, hevaluates, rfl⟩ := h
    obtain ⟨error', hevaluates', rfl⟩ := h'
    cases hevaluates.unique hevaluates'
    rfl

/-- The stage that fails first, and its message, are unique. -/
theorem FailsFirst.unique (h : i.FailsFirst stage message) (h' : i.FailsFirst stage' message') :
    stage = stage' ∧ message = message' := by
  obtain ⟨hpasses, hfails⟩ := h
  obtain ⟨hpasses', hfails'⟩ := h'
  rcases Stage.earlier_trichotomy stage stage' with hearlier | rfl | hearlier
  · exact absurd hfails (hpasses' _ hearlier).not_fails
  · exact ⟨rfl, hfails.unique hfails'⟩
  · exact absurd hfails' (hpasses _ hearlier).not_fails

/-! ### Following a run -/

/-- What a run comes to: a verdict, or the message of the first failure. -/
inductive ComesTo (i : Invocation) : Except String Bool → Prop
  /-- All stages pass. -/
  | verdict {verdict : Bool} : (∀ stage, i.Passes stage) → i.Evaluates (.ok verdict) →
    ComesTo i (.ok verdict)
  /-- A stage fails, and those before it pass. -/
  | failure (stage : Stage) {message : String} : i.FailsFirst stage message →
    ComesTo i (.error message)

/-- The settings before the variables, or the message of their error. -/
def loaded (i : Invocation) : Except String Settings :=
  match i.config with
  | some path => Command.loading "config" path (Settings.load i.files path)
  | none => .ok {}

/-- Settings with the order of operands that the arguments give. -/
def withOrdering (i : Invocation) (settings : Settings) : Settings :=
  { settings with ordering := i.ordering.getD settings.ordering }

/-- The verdict with settings in effect, or the message of the error. -/
def verdictWith (i : Invocation) (settings : Settings) : Except String Bool := do
  let c ← Command.loading "condition" i.condition (Condition.load i.files i.condition)
  let record ← Command.loading "record" i.data (Record.load i.files i.data)
  let table ← settings.aliasTable.mapError SettingsError.message
  ((settings.evaluator table.resolve).evaluate record c).mapError EvaluationError.message

/-- The verdict, or the message of the error. -/
def verdict (i : Invocation) : Except String Bool :=
  Command.verdict i.files (i.process.withFile i.variableFile) i.condition i.data i.config i.ordering

theorem verdict_eq (i : Invocation) :
    i.verdict = i.loaded >>= fun base =>
      (base.override i.value?).mapError SettingsError.message >>= fun settings =>
        i.verdictWith (i.withOrdering settings) := by
  have hvalue : (fun name => (i.process.withFile i.variableFile).lookup name) = i.value? :=
    funext fun name => Environment.lookup_withFile i.process i.variableFile name
  rw [← hvalue]
  unfold verdict Command.verdict Command.settings loaded
  cases i.config with
  | none => rfl
  | some path => exact bind_assoc ..

theorem loading_eq_ok_iff {α : Type} {kind path : String} {result : Except Failure α} {a : α} :
    Command.loading kind path result = .ok a ↔ result = .ok a :=
  mapError_eq_ok_iff

theorem loading_eq_error_iff {α : Type} {kind path : String} {result : Except Failure α} :
    Command.loading kind path result = .error message ↔
      ∃ failure, result = .error failure ∧ message = failedToLoad kind path := by
  rw [Command.loading, mapError_eq_error_iff]
  exact exists_congr fun failure => and_congr_right fun _ => eq_comm

theorem base_of_loaded {base : Settings} (h : i.loaded = .ok base) : i.Base base := by
  unfold loaded at h
  split at h
  · next path hpath => exact .file hpath (loading_eq_ok_iff.mp h)
  · next hnone =>
    cases h
    exact .default hnone

theorem fails_of_loaded (h : i.loaded = .error message) : i.Fails message .config := by
  unfold loaded at h
  split at h
  · next path hpath =>
    obtain ⟨failure, hload, hmessage⟩ := loading_eq_error_iff.mp h
    exact ⟨path, failure, hpath, hload, hmessage⟩
  · cases h

/-- Settings with the variables and then the arguments written over them are in effect. -/
theorem layered_withOrdering {base settings : Settings}
    (h : Settings.Overlay i.value? base settings) : i.Layered base (i.withOrdering settings) := by
  refine ⟨?_, h.maxDepth, h.strict, h.caseInsensitive, h.aliases⟩
  unfold withOrdering
  cases i.ordering with
  | none => exact .inr ⟨rfl, h.ordering⟩
  | some ordering => exact .inl rfl

theorem passes_concat {stages : List Stage} (h : ∀ stage' ∈ stages, i.Passes stage')
    (stage : Stage) (hstage : i.Passes stage) : ∀ stage' ∈ stages ++ [stage], i.Passes stage' :=
  List.forall_mem_append.mpr ⟨h, List.forall_mem_singleton.mpr hstage⟩

/-- From the settings in effect on, a run comes to a verdict or to the first failure. -/
theorem comesTo_verdictWith {settings : Settings} (heffective : i.Effective settings)
    (hpassed : ∀ stage ∈ [Stage.config, .overrides], i.Passes stage) :
    i.ComesTo (i.verdictWith settings) := by
  unfold verdictWith
  cases hc : Condition.load i.files i.condition with
  | error failure => exact .failure .condition ⟨hpassed, failure, hc, rfl⟩
  | ok c =>
  replace hpassed := passes_concat hpassed .condition ⟨c, hc⟩
  cases hrecord : Record.load i.files i.data with
  | error failure => exact .failure .record ⟨hpassed, failure, hrecord, rfl⟩
  | ok record =>
  replace hpassed := passes_concat hpassed .record ⟨record, hrecord⟩
  cases htable : settings.aliasTable with
  | error error =>
    exact .failure .aliases ⟨hpassed, error, ⟨settings, heffective, htable⟩, rfl⟩
  | ok table =>
  replace hpassed := passes_concat hpassed .aliases ⟨table, settings, heffective, htable⟩
  have hevaluates : i.Evaluates ((settings.evaluator table.resolve).evaluate record c) :=
    ⟨settings, c, record, table, heffective, hc, hrecord, htable, rfl⟩
  show i.ComesTo (((settings.evaluator table.resolve).evaluate record c).mapError
    EvaluationError.message)
  cases hresult : (settings.evaluator table.resolve).evaluate record c with
  | error error =>
    rw [hresult] at hevaluates
    exact .failure .evaluation ⟨hpassed, error, hevaluates, rfl⟩
  | ok verdict =>
    rw [hresult] at hevaluates
    replace hpassed := passes_concat hpassed .evaluation ⟨verdict, hevaluates⟩
    exact .verdict (fun stage => hpassed stage stage.mem_all) hevaluates

/-- **A run comes to a verdict or to the first failure.** -/
theorem comesTo_verdict (i : Invocation) : i.ComesTo i.verdict := by
  rw [verdict_eq]
  cases hloaded : i.loaded with
  | error message => exact .failure .config ⟨List.forall_mem_nil _, fails_of_loaded hloaded⟩
  | ok base =>
  have hbase := base_of_loaded hloaded
  have hpassed := List.forall_mem_singleton.mpr (show i.Passes .config from ⟨base, hbase⟩)
  rw [ok_bind]
  cases hoverride : base.override i.value? with
  | error error =>
    exact .failure .overrides ⟨hpassed, error, Settings.override_eq_error_iff.mp hoverride, rfl⟩
  | ok settings =>
  have hlayered := layered_withOrdering (Settings.override_eq_ok_iff.mp hoverride)
  exact comesTo_verdictWith ⟨base, hbase, hlayered⟩ (passes_concat hpassed .overrides
    (Settings.exists_override_iff.mp ⟨settings, hoverride⟩))

theorem ComesTo.unique {result result' : Except String Bool} (h : i.ComesTo result)
    (h' : i.ComesTo result') : result = result' := by
  cases h with
  | verdict hpasses hevaluates =>
    cases h' with
    | verdict _ hevaluates' =>
      cases hevaluates.unique hevaluates'
      rfl
    | failure stage hfails => exact absurd hfails.2 (hpasses stage).not_fails
  | failure stage hfails =>
    cases h' with
    | verdict hpasses => exact absurd hfails.2 (hpasses stage).not_fails
    | failure stage' hfails' => rw [(hfails.unique hfails').2]

theorem verdict_eq_iff {result : Except String Bool} :
    i.verdict = result ↔ i.ComesTo result :=
  ⟨fun h => h ▸ i.comesTo_verdict, i.comesTo_verdict.unique⟩

/-! ### How runs end -/

/-- How a run with a result ends. -/
def endingOf : Except String Bool → Ending
  | .ok verdict => { code := 0, output := (if verdict then "true" else "false") ++ "\n" }
  | .error message => { code := 1, error := some (errorLine message) }

theorem ending_eq {arguments : List String} (h : i.IsAskedBy arguments) :
    i.ending arguments = endingOf i.verdict := by
  unfold IsAskedBy at h
  rw [ending, runArguments, h]
  have hanswer : Command.answer i.files (i.process.withFile i.variableFile)
      (.evaluate i.condition i.data i.config i.ordering) =
        i.verdict >>= fun verdict => .ok (if verdict then "true" else "false") := rfl
  dsimp only
  rw [hanswer]
  cases i.verdict <;> rfl

theorem endingOf_eq_ok_iff {result : Except String Bool} {verdict : Bool} :
    endingOf result = endingOf (.ok verdict) ↔ result = .ok verdict := by
  cases result with
  | ok verdict' =>
    rw [Except.ok.injEq]
    cases verdict <;> cases verdict' <;> decide
  | error message => exact ⟨fun h => absurd (congrArg Ending.code h) nofun, nofun⟩

theorem Base.defaultsBut {base : Settings} (h : i.Base base) : base.DefaultsBut i.Says := by
  cases h with
  | default => exact Settings.defaultsBut_default _
  | @file file settings hpath hload =>
    obtain ⟨text, htext, hparse⟩ := bind_eq_ok_iff.mp hload
    refine (Settings.ensures_parse text _ hparse).mono fun path hsays => ?_
    exact ⟨file, text, hpath, mapError_eq_ok_iff.mp htext, hsays⟩

/-- **How an evaluation ends**. If all stages pass, the verdict is printed that the condition has on
the record with the settings in effect, and only then. Else nothing is printed, and the line for the
error is that of the first stage that fails. A variable that names no order of operands fails the
run, whatever order the arguments give; it is reported unless the settings cannot be loaded. What
the file of settings does not say has its default. -/
theorem ending_of_isAskedBy {arguments : List String} (h : i.IsAskedBy arguments) :
    (∀ verdict : Bool,
      i.ending arguments =
          { code := 0, output := (if verdict then "true" else "false") ++ "\n" } ↔
        (∀ stage, i.Passes stage) ∧ i.Evaluates (.ok verdict)) ∧
    (∀ stage message, i.FailsFirst stage message →
      i.ending arguments = { code := 1, error := some (errorLine message) }) ∧
    ((∀ stage, i.Passes stage) ∨ ∃ stage message, i.FailsFirst stage message) ∧
    (∀ text error, i.value? orderingVariable = some text → parseOrdering text = .error error →
      (i.ending arguments).code = 1 ∧
        (i.Passes .config → i.FailsFirst .overrides error.message)) ∧
    ∀ base, i.Base base → base.DefaultsBut i.Says := by
  rw [ending_eq h]
  refine ⟨fun verdict => ?_, fun stage message hfails => ?_, ?_, fun text error hset herror => ?_,
    fun base hbase => hbase.defaultsBut⟩
  · refine (endingOf_eq_ok_iff.trans verdict_eq_iff).trans ⟨?_, fun hpasses => ?_⟩
    · rintro (⟨hpasses, hevaluates⟩ | -)
      exact ⟨hpasses, hevaluates⟩
    · exact .verdict hpasses.1 hpasses.2
  · rw [verdict_eq_iff.mpr (.failure stage hfails)]
    rfl
  · have hcomes := i.comesTo_verdict
    generalize i.verdict = result at hcomes
    cases hcomes with
    | verdict hpasses => exact .inl hpasses
    | failure stage hfails => exact .inr ⟨stage, _, hfails⟩
  · have hfails : i.Fails error.message .overrides :=
      ⟨error, Settings.head?_variableErrors hset herror, rfl⟩
    refine ⟨?_, fun hconfig => ⟨List.forall_mem_singleton.mpr hconfig, hfails⟩⟩
    cases hresult : i.verdict with
    | ok verdict =>
      obtain ⟨hpasses, -⟩ | - := verdict_eq_iff.mp hresult
      exact absurd hfails (hpasses .overrides).not_fails
    | error message => rfl

/-- A condition that always holds, on an empty record, in the order that the arguments give. -/
def always (process : Environment) : Invocation where
  files path :=
    if path = "all.json" then .ok "\x7b\"op\":\"and\",\"conditions\":[]\x7d"
    else if path = "data.json" then .ok "\x7b\x7d"
    else .error .notFound
  process := process
  variableFile := some "CONDITION_ORDERING=fuzzy"
  condition := "all.json"
  data := "data.json"
  config := none
  ordering := some .strict

/-- A variable of the process hides that of the file, which else fails the run. -/
theorem ending_of_isAskedBy_always :
    (always []).IsAskedBy ["eval", "-c", "all.json", "--data=data.json", "--ordering", "strict"] ∧
    (always [("CONDITION_ORDERING", "loose")]).Evaluates (.ok true) ∧
    (always []).FailsFirst .overrides
      "Configuration error: unknown ordering mode 'fuzzy'" := by
  have hasked process : (always process).IsAskedBy
      ["eval", "-c", "all.json", "--data=data.json", "--ordering", "strict"] := rfl
  obtain ⟨hverdict, -⟩ := ending_of_isAskedBy (hasked [("CONDITION_ORDERING", "loose")])
  obtain ⟨-, -, -, hordering, -⟩ := ending_of_isAskedBy (hasked [])
  refine ⟨hasked [], ((hverdict true).mp (by decide +kernel)).2, ?_⟩
  exact (hordering "fuzzy" (.unknownOrdering "fuzzy") (by decide +kernel) rfl).2 ⟨_, .default rfl⟩

end Invocation

end Conditions
