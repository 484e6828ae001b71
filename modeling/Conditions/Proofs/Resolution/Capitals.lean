import Conditions.Proofs.Evaluation.Reads
import Conditions.Proofs.Resolution.Aliases

/-!
# Capitals that do not count

When capitals stop to count, a table loses nothing: a token that it knew it still knows, for the
same operator, and what it calls malformed stays so (`insensitive_extends`). Only tokens that named
nothing may come to name something. So a run in which no such token is visited is the same run with
the other table, whatever the orders are in which the two are built.

A token may only be kept as one with others, and these stand for its operator, or there would be no
table at all.
-/

namespace Conditions

/-! ### Small letters of ASCII texts -/

/-- All characters of a text are ASCII. -/
def IsAscii (s : String) : Prop := ∀ c ∈ s.toList, c.toNat < 128

instance (s : String) : Decidable (IsAscii s) :=
  List.decidableBAll (fun c : Char => c.toNat < 128) s.toList

/-- Of the runs of capitals only the first has ASCII characters. -/
theorem lowerRuns_ascii : ∀ run ∈ lowerRuns, run = (0x41, 0x5a, 1, 32) ∨ 128 ≤ run.1 := by
  decide +kernel

theorem lowerSimple_of_ascii {c : Char} (h : c.toNat < 128) : lowerSimple c = c.toLower := by
  by_cases hcapital : 0x41 ≤ c.toNat ∧ c.toNat ≤ 0x5a
  · have hall : ∀ n < 26,
        lowerSimple (Char.ofNat (0x41 + n)) = (Char.ofNat (0x41 + n)).toLower := by decide
    have hc := hall (c.toNat - 0x41) (by omega)
    rwa [Nat.add_sub_cancel' hcapital.1, Char.ofNat_toNat] at hc
  · have hsmall : ¬ (c.val ≥ 'A'.val ∧ c.val ≤ 'Z'.val) := hcapital
    have hlower : c.toLower = c := dif_neg hsmall
    unfold lowerSimple
    rw [hlower, List.find?_eq_none.mpr]
    -- a run that has the character is the first, and then it is a capital
    intro run hrun hin
    simp only [Bool.and_eq_true, decide_eq_true_eq] at hin
    rcases lowerRuns_ascii run hrun with rfl | hfirst
    · exact hcapital hin.1
    · omega

theorem lowerAfter_of_ascii {cs : List Char} (h : ∀ c ∈ cs, c.toNat < 128) (before : List Char) :
    lowerAfter before cs = cs.map Char.toLower := by
  induction cs generalizing before with
  | nil => rfl
  | cons c cs ih =>
    obtain ⟨hc, hcs⟩ := List.forall_mem_cons.mp h
    have hsigma : c ≠ 'Σ' := by
      rintro rfl
      exact absurd hc (by decide)
    have hdotted : c ≠ 'İ' := by
      rintro rfl
      exact absurd hc (by decide)
    rw [lowerAfter, ih hcs, lowerAt, if_neg hsigma, if_neg hdotted, lowerSimple_of_ascii hc]
    rfl

/-- The small letters of an ASCII text are the ASCII ones. -/
theorem lowercase_of_isAscii {s : String} (h : IsAscii s) : lowercase s = lowerAscii s := by
  rw [lowercase, lowerAfter_of_ascii h, lowerAscii]

namespace AliasTable

variable {order order' : Enumeration} {settings : ResolverSettings} {table : AliasTable}
  {text token : String} {kind : OperatorKind}

/-! ### The answers of a table -/

/-- A table finds a text malformed exactly if it is blank. -/
theorem resolve_eq_malformed_iff :
    table.resolve text = .error (.malformed token) ↔ trim text = "" ∧ text = token := by
  by_cases htext : trim text = ""
  · simp [resolve_blank table htext, htext]
  · cases hfind : table.entries.find? (table.sought text) with
    | some kind => simp [resolve_of_find? htext hfind, htext]
    | none =>
      rw [resolve_of_find?_eq_none htext hfind]
      cases table.strict <;> simp [htext]

/-- A text that a table resolves to one of the nine operators is named by a token that the table
keeps as it. -/
theorem names_of_resolve (hc : settings.Coherent) (h : ofSettingsIn order settings = .ok table)
    (hknown : kind ∈ OperatorKind.known) (hresolve : table.resolve text = .ok kind) :
    trim text ≠ "" ∧ ∃ name, settings.Names name kind ∧
      settings.fold name = settings.fold (trim text) := by
  have htext : trim text ≠ "" := by
    intro hblank
    cases (resolve_blank table hblank).symm.trans hresolve
  refine ⟨htext, ?_⟩
  cases hfind : table.entries.find? (table.sought text) with
  | some other =>
    cases (resolve_of_find? htext hfind).symm.trans hresolve
    obtain ⟨name, hname, hfold⟩ := (find?_ofSettingsIn hc h).mp hfind
    exact ⟨name, hname, hfold.trans (sought_eq_fold h text)⟩
  | none =>
    -- what is left unrecognized is none of the nine
    rw [resolve_of_find?_eq_none htext hfind] at hresolve
    cases hstrict : table.strict with
    | true => simp [hstrict] at hresolve
    | false =>
      simp only [hstrict, Bool.false_eq_true, if_false, Except.ok.injEq] at hresolve
      subst hresolve
      simp [OperatorKind.known] at hknown

/-- A text is malformed, has one of the nine operators, or names nothing. -/
theorem resolve_cases (h : ofSettingsIn order settings = .ok table) (text : String) :
    table.resolve text = .error (.malformed text) ∨
      (∃ kind ∈ OperatorKind.known, table.resolve text = .ok kind) ∨
      table.resolve text = .error (.unknown (trim text)) ∨
      table.resolve text = .ok (.unrecognized (trim text)) := by
  by_cases htext : trim text = ""
  · exact .inl (resolve_blank table htext)
  · cases hfind : table.entries.find? (table.sought text) with
    | some kind =>
      exact .inr (.inl ⟨kind, mem_known_of_find? h hfind, resolve_of_find? htext hfind⟩)
    | none =>
      rw [resolve_of_find?_eq_none htext hfind]
      cases table.strict <;> simp

/-! ### With capitals and without -/

/-- Whether capitals count is no matter to what a token names. -/
theorem names_caseInsensitive (caseInsensitive : Bool) :
    ResolverSettings.Names { settings with caseInsensitive } token kind ↔
      settings.Names token kind :=
  ResolverSettings.Names.congr_aliases fun _ => Iff.rfl

variable {sensitive insensitive : AliasTable}

/-- What a table knows it knows when capitals do not count. -/
theorem resolve_insensitive (hc : settings.Coherent)
    (hs : ofSettingsIn order { settings with caseInsensitive := false } = .ok sensitive)
    (hi : ofSettingsIn order' { settings with caseInsensitive := true } = .ok insensitive)
    (hknown : kind ∈ OperatorKind.known) (hresolve : sensitive.resolve text = .ok kind) :
    insensitive.resolve text = .ok kind := by
  have hcs : ResolverSettings.Coherent { settings with caseInsensitive := false } := hc
  have hci : ResolverSettings.Coherent { settings with caseInsensitive := true } := hc
  obtain ⟨htext, name, hname, hfold⟩ := names_of_resolve hcs hs hknown hresolve
  -- a token is kept as it is where capitals count
  obtain rfl : name = trim text := hfold
  have hname' : ResolverSettings.Names { settings with caseInsensitive := true } (trim text) kind :=
    (names_caseInsensitive true).mpr ((names_caseInsensitive false).mp hname)
  exact resolve_of_names hci hi hname' htext rfl

/-- **When capitals do not count, tokens only gain meaning**. Let there be a table for some settings
in which no two aliases are the same but for blanks around them, with capitals and without. What the
first resolves to one of the nine operators, the second resolves to it as well; both find the same
texts malformed; and a run with the first that visits no token without an operator is the run with
the second. The orders of aliases and tokens are no matter. -/
theorem insensitive_extends (settings : ResolverSettings)
    (distinct : (settings.aliases.map (trim ·.1)).Nodup)
    {aliases : List (String × String)} (hperm : aliases.Perm settings.aliases)
    (hs : ofSettingsIn order { settings with caseInsensitive := false } = .ok sensitive)
    (hi : ofSettingsIn order' { settings with caseInsensitive := true, aliases := aliases } =
      .ok insensitive) :
    (∀ text, ∀ kind ∈ OperatorKind.known, sensitive.resolve text = .ok kind →
      insensitive.resolve text = .ok kind) ∧
    (∀ text token, insensitive.resolve text = .error (.malformed token) ↔
      sensitive.resolve text = .error (.malformed token)) ∧
    ∀ (ordering : OrderingMode) (maxDepth : Option Nat) (record : Record) (c : Condition),
      (∀ v ∈ ((⟨sensitive.resolve, ordering, maxDepth⟩ : Evaluator).run record c).visits,
        ∀ token, sensitive.resolve v.node.op ≠ .error (.unknown token) ∧
          sensitive.resolve v.node.op ≠ .ok (.unrecognized token)) →
      (⟨insensitive.resolve, ordering, maxDepth⟩ : Evaluator).run record c =
        (⟨sensitive.resolve, ordering, maxDepth⟩ : Evaluator).run record c := by
  have hc := ResolverSettings.coherent_of_nodup distinct
  have hc' : ResolverSettings.Coherent
      { settings with caseInsensitive := true, aliases := aliases } :=
    fun a ha b hb => hc a (hperm.mem_iff.mp ha) b (hperm.mem_iff.mp hb)
  have hi' : ofSettingsIn order' { settings with caseInsensitive := true } = .ok insensitive :=
    ofSettingsIn_perm hc' hperm.symm hi
  have hmalformed (text token : String) : insensitive.resolve text = .error (.malformed token) ↔
      sensitive.resolve text = .error (.malformed token) := by
    rw [resolve_eq_malformed_iff, resolve_eq_malformed_iff]
  refine ⟨fun text kind hknown => resolve_insensitive hc hs hi' hknown, hmalformed,
    fun ordering maxDepth record c hvisits => ?_⟩
  refine Evaluator.enter_eq_of_role_eq ?_ [] c fun v hv =>
    Evaluator.role_eq_of_reads ?_ fun _ _ _ _ => .refl _
  · rfl
  rcases resolve_cases hs v.node.op with hop | ⟨kind, hknown, hop⟩ | hop | hop
  · rw [hop, hmalformed, hop]
  · rw [hop, resolve_insensitive hc hs hi' hknown hop]
  · exact absurd hop (hvisits v hv _).1
  · exact absurd hop (hvisits v hv _).2

/-- An alias in capitals, with blanks around it. -/
def shouted : ResolverSettings := { aliases := [(" NEVER ", "not")] }

theorem mem_of_names_shouted (h : shouted.Names token kind) :
    (token, kind) ∈ ("NEVER", .not) :: builtinAliases := by
  rcases h with ⟨mem, rfl, target⟩ | ⟨-, mem⟩
  · obtain rfl := List.mem_singleton.mp mem
    obtain rfl : OperatorKind.not = kind := Option.some.inj target
    exact List.mem_cons_self
  · exact List.mem_cons_of_mem _ mem

/-- The alias in capitals is at odds with no other, whether or not capitals count. -/
theorem exists_shouted (order : Enumeration) (caseInsensitive : Bool) :
    ∃ table, ofSettingsIn order { shouted with caseInsensitive } = .ok table := by
  have hascii : ∀ a ∈ ("NEVER", OperatorKind.not) :: builtinAliases, IsAscii a.1 := by
    decide +kernel
  have hone : ∀ a ∈ ("NEVER", OperatorKind.not) :: builtinAliases,
      ∀ b ∈ ("NEVER", OperatorKind.not) :: builtinAliases,
      lowerAscii a.1 = lowerAscii b.1 → a.2 = b.2 := by decide +kernel
  have hc : ResolverSettings.Coherent { shouted with caseInsensitive } :=
    ResolverSettings.coherent_of_nodup (by decide : (shouted.aliases.map (trim ·.1)).Nodup)
  have htargets : ∀ entry ∈ shouted.aliases,
      entry.2 ∈ OperatorKind.known.map OperatorKind.name := by decide
  have hfilled : ∀ entry ∈ shouted.aliases, trim entry.1 ≠ "" := by decide
  refine (ofSettingsIn_isOk_iff hc).mpr
    ⟨htargets, hfilled, fun token token' kind kind' h h' hfold => ?_⟩
  have hmem := mem_of_names_shouted ((names_caseInsensitive caseInsensitive).mp h)
  have hmem' := mem_of_names_shouted ((names_caseInsensitive caseInsensitive).mp h')
  refine hone _ hmem _ hmem' ?_
  cases caseInsensitive with
  | false => exact congrArg lowerAscii hfold
  | true =>
    rw [← lowercase_of_isAscii (hascii _ hmem), ← lowercase_of_isAscii (hascii _ hmem')]
    exact hfold

/-- Negates a blank token by the alias. -/
def shouting : Condition :=
  { Condition.ofToken "NEVER" with condition := some (.ofToken " ") }

theorem insensitive_extends_shouted :
    (shouted.aliases.map (trim ·.1)).Nodup ∧ ∃ sensitive insensitive,
      ofSettingsIn .inOrder { shouted with caseInsensitive := false } = .ok sensitive ∧
      ofSettingsIn .inOrder { shouted with caseInsensitive := true } = .ok insensitive ∧
      insensitive.resolve "NEVER" = .ok .not ∧
      insensitive.resolve " " = .error (.malformed " ") ∧
      (⟨insensitive.resolve, .loose, none⟩ : Evaluator).run .empty shouting =
        ⟨.error (.resolve (.malformed " ")),
          [⟨[], shouting⟩, ⟨[.operand], .ofToken " "⟩]⟩ := by
  have hdistinct : (shouted.aliases.map (trim ·.1)).Nodup := by decide
  obtain ⟨sensitive, hs⟩ := exists_shouted .inOrder false
  obtain ⟨insensitive, hi⟩ := exists_shouted .inOrder true
  obtain ⟨hknown, hmalformed, hruns⟩ := insensitive_extends shouted hdistinct (.refl _) hs hi
  have hname : ResolverSettings.Names { shouted with caseInsensitive := false } "NEVER" .not :=
    .alias (List.mem_singleton.mpr rfl) (by decide) (by decide)
  have hc : ResolverSettings.Coherent { shouted with caseInsensitive := false } :=
    ResolverSettings.coherent_of_nodup hdistinct
  have hnever : sensitive.resolve "NEVER" = .ok .not :=
    resolve_of_names hc hs hname (by decide) (by decide)
  have hblank : sensitive.resolve " " = .error (.malformed " ") :=
    resolve_blank sensitive (by decide)
  have hroot : sensitive.resolve shouting.op = .ok .not := hnever
  have hoperand : sensitive.resolve (Condition.ofToken " ").op = .error (.malformed " ") := hblank
  have hrun : (⟨sensitive.resolve, .loose, none⟩ : Evaluator).run .empty shouting =
      ⟨.error (.resolve (.malformed " ")), [⟨[], shouting⟩, ⟨[.operand], .ofToken " "⟩]⟩ := by
    have admits (position : Position) :
        (⟨sensitive.resolve, .loose, none⟩ : Evaluator).Admits position := nofun
    have hnegation : (⟨sensitive.resolve, .loose, none⟩ : Evaluator).role .empty shouting =
        .negation (.ofToken " ") := Evaluator.role_eq_negation_iff.mpr ⟨hroot, rfl⟩
    have hfault : (⟨sensitive.resolve, .loose, none⟩ : Evaluator).role .empty (.ofToken " ") =
        .fault (.resolve (.malformed " ")) := by simp only [Evaluator.role, hoperand]
    rw [Evaluator.run, Evaluator.enter_negation (admits _) hnegation,
      Evaluator.enter_fault (admits _) hfault]
    rfl
  refine ⟨hdistinct, sensitive, insensitive, hs, hi, hknown _ _ (by decide) hnever,
    (hmalformed _ _).mpr hblank, ?_⟩
  rw [hruns, hrun]
  rw [hrun]
  simp [hoperand, hroot]

end AliasTable

end Conditions
