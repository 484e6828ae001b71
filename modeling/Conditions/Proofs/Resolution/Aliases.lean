import Conditions.Proofs.Resolution.Tables
import Mathlib.Data.Finset.Card
import Mathlib.Data.Finset.Image
import Mathlib.Data.List.Dedup

/-!
# What configured aliases mean

In the settings a token `Names` an operator if an alias says so, or if there is none for it and it
is a built-in alias. A table built from the settings answers a token by this relation alone: by the
operator of any token that is the same in small letters, if capitals do not count. So the order in
which aliases and tokens are gone through is no matter, as long as no two aliases are the same but
for blanks around them.

If two are, one is written over the other without a word. A table honours all the aliases of its
settings exactly if those of one token have one target (`resolve_alias_iff`), and settings with two
targets for a token are not refused (`ofSettings_overriding`).
-/

namespace Conditions

namespace ResolverSettings

variable (settings : ResolverSettings)

/-- A token stands for an operator, capitals aside. -/
inductive Names (token : String) (kind : OperatorKind) : Prop where
  /-- An alias says so. -/
  | alias {entry : String × String} (mem : entry ∈ settings.aliases)
      (token : trim entry.1 = token) (target : OperatorKind.ofName? entry.2 = some kind)
  /-- No alias is for the token, and it is a built-in one. -/
  | builtin (free : ∀ entry ∈ settings.aliases, trim entry.1 ≠ token)
      (mem : (token, kind) ∈ builtinAliases)

/-- A token as a table of the settings keeps it. -/
def fold (token : String) : String :=
  if settings.caseInsensitive then lowercase token else token

/-- The tokens that stand for an operator. -/
def tokens : Finset String :=
  (builtinAliases.map (·.1) ++ settings.aliases.map (trim ·.1)).toFinset

/-- The aliases of one token have one target. -/
def Coherent : Prop :=
  ∀ a ∈ settings.aliases, ∀ b ∈ settings.aliases, trim a.1 = trim b.1 → a.2 = b.2

/-- Nothing speaks against a table. -/
structure Sound : Prop where
  /-- Every alias stands for one of the nine operators. -/
  targets : ∀ entry ∈ settings.aliases, entry.2 ∈ OperatorKind.known.map OperatorKind.name
  /-- No alias is blank. -/
  filled : ∀ entry ∈ settings.aliases, trim entry.1 ≠ ""
  /-- Tokens that the table keeps as one stand for one operator. -/
  compatible : ∀ token token' kind kind', settings.Names token kind →
    settings.Names token' kind' → settings.fold token = settings.fold token' → kind = kind'

variable {settings}

theorem coherent_of_nodup (h : (settings.aliases.map (trim ·.1)).Nodup) : settings.Coherent :=
  fun _ ha _ hb hab => congrArg Prod.snd (List.inj_on_of_nodup_map h ha hb hab)

theorem Names.congr_aliases {settings' : ResolverSettings} {token : String} {kind : OperatorKind}
    (h : ∀ entry, entry ∈ settings.aliases ↔ entry ∈ settings'.aliases) :
    settings.Names token kind ↔ settings'.Names token kind := by
  constructor
  · rintro (⟨mem, token, target⟩ | ⟨free, mem⟩)
    · exact .alias ((h _).mp mem) token target
    · exact .builtin (fun entry hentry => free entry ((h entry).mpr hentry)) mem
  · rintro (⟨mem, token, target⟩ | ⟨free, mem⟩)
    · exact .alias ((h _).mpr mem) token target
    · exact .builtin (fun entry hentry => free entry ((h entry).mp hentry)) mem

/-- If every alias has an operator, the tokens are those that stand for one. -/
theorem mem_tokens_iff {token : String}
    (h : ∀ entry ∈ settings.aliases, ∃ kind, OperatorKind.ofName? entry.2 = some kind) :
    token ∈ settings.tokens ↔ ∃ kind, settings.Names token kind := by
  simp only [tokens, List.mem_toFinset, List.mem_append, List.mem_map]
  constructor
  · intro htoken
    by_cases hfree : ∀ entry ∈ settings.aliases, trim entry.1 ≠ token
    · rcases htoken with ⟨entry, hentry, rfl⟩ | ⟨entry, hentry, rfl⟩
      · exact ⟨entry.2, .builtin hfree hentry⟩
      · exact absurd rfl (hfree entry hentry)
    · simp only [ne_eq, not_forall, not_not] at hfree
      obtain ⟨entry, hentry, htrim⟩ := hfree
      obtain ⟨kind, hkind⟩ := h entry hentry
      exact ⟨kind, .alias hentry htrim hkind⟩
  · rintro ⟨kind, ⟨mem, htrim, -⟩ | ⟨-, mem⟩⟩
    · exact .inr ⟨_, mem, htrim⟩
    · exact .inl ⟨_, mem, rfl⟩

end ResolverSettings

namespace AliasTable

variable {order : Enumeration} {settings : ResolverSettings} {table : AliasTable}
  {entries : Fields OperatorKind} {token : String} {kind : OperatorKind}

/-! ### What a table answers -/

/-- After the first pass a token stands for what it names. -/
theorem find?_eq_some_iff_names (hc : settings.Coherent)
    (h : addAliases builtin.entries settings.aliases = .ok entries) :
    entries.find? token = some kind ↔ settings.Names token kind := by
  rw [find?_addAliases h]
  cases hfind : settings.aliases.reverse.find? (trim ·.1 = token) with
  | none =>
    have hfree : ∀ entry ∈ settings.aliases, trim entry.1 ≠ token := fun entry hentry => by
      simpa using List.find?_eq_none.mp hfind entry (List.mem_reverse.mpr hentry)
    simp only [find?_builtin]
    refine ⟨.builtin hfree, ?_⟩
    rintro (⟨mem, htoken, -⟩ | ⟨-, mem⟩)
    · exact absurd htoken (hfree _ mem)
    · exact mem
  | some entry =>
    have hentry := List.mem_reverse.mp (List.mem_of_find?_eq_some hfind)
    have htoken : trim entry.1 = token := by simpa using List.find?_some hfind
    show OperatorKind.ofName? entry.2 = some kind ↔ settings.Names token kind
    refine ⟨.alias hentry htoken, ?_⟩
    rintro (⟨mem, htoken', target⟩ | ⟨free, -⟩)
    · rw [hc entry hentry _ mem (htoken.trans htoken'.symm)]
      exact target
    · exact absurd htoken (free entry hentry)

/-- A finished table answers by what any token names that it keeps as the one asked for. -/
theorem find?_ofSettingsIn (hc : settings.Coherent) (h : ofSettingsIn order settings = .ok table) :
    table.entries.find? token = some kind ↔
      ∃ name, settings.Names name kind ∧ settings.fold name = token := by
  obtain ⟨entries, hadd, hfold, -⟩ := ofSettingsIn_eq_ok_iff.mp h
  have hs : entries.Sorted := sorted_addAliases hadd (Fields.sorted_ofWrites builtinAliases)
  unfold foldIf at hfold
  unfold ResolverSettings.fold
  split at hfold
  · simp only [find?_foldEntries hfold, Fields.find?_nil, (order.perm entries).mem_iff,
      Prod.exists, ← find?_eq_some_iff_names hc hadd, Fields.find?_eq_some_iff hs]
    grind
  · next hcase =>
    cases hfold
    simp [hcase, find?_eq_some_iff_names hc hadd]

/-- There is a table exactly if nothing speaks against it. -/
theorem ofSettingsIn_isOk_iff (hc : settings.Coherent) :
    (∃ table, ofSettingsIn order settings = .ok table) ↔ settings.Sound := by
  constructor
  · rintro ⟨table, h⟩
    obtain ⟨entries, hadd, -⟩ := ofSettingsIn_eq_ok_iff.mp h
    have haliases := addAliases_isOk_iff.mp ⟨entries, hadd⟩
    refine ⟨fun entry hentry => ?_, fun entry hentry => (haliases entry hentry).1,
      fun token token' kind kind' hkind hkind' hfold => ?_⟩
    · exact (OperatorKind.ofName?_eq_some_iff_mem entry.2).mp (haliases entry hentry).2
    · have hfind := (find?_ofSettingsIn hc h).mpr ⟨token, hkind, hfold⟩
      have hfind' := (find?_ofSettingsIn hc h).mpr ⟨token', hkind', rfl⟩
      exact Option.some_inj.mp (hfind.symm.trans hfind')
  · rintro ⟨targets, filled, compatible⟩
    obtain ⟨entries, hadd⟩ : ∃ entries, addAliases builtin.entries settings.aliases = .ok entries :=
      addAliases_isOk_iff.mpr fun entry hentry => ⟨filled entry hentry,
        (OperatorKind.ofName?_eq_some_iff_mem entry.2).mpr (targets entry hentry)⟩
    have hs : entries.Sorted := sorted_addAliases hadd (Fields.sorted_ofWrites builtinAliases)
    have hnames (a : String × OperatorKind) (ha : a ∈ order.list entries) :
        settings.Names a.1 a.2 :=
      (find?_eq_some_iff_names hc hadd).mp
        ((Fields.find?_eq_some_iff hs).mpr ((order.perm entries).mem_iff.mp ha))
    have hfold : ∃ entries', foldIf order settings.caseInsensitive entries = .ok entries' := by
      unfold foldIf
      unfold ResolverSettings.fold at compatible
      split
      · next hcase =>
        refine foldEntries_isOk_iff.mpr fun a ha b hb hab => ?_
        exact compatible a.1 b.1 a.2 b.2 (hnames a ha) (hnames b hb) (by simpa [hcase] using hab)
      · exact ⟨entries, rfl⟩
    obtain ⟨entries', hentries'⟩ := hfold
    exact ⟨⟨entries', settings.caseInsensitive, settings.strict⟩,
      ofSettingsIn_eq_ok_iff.mpr ⟨entries, hadd, hentries', rfl, rfl⟩⟩

/-! ### Resolving -/

/-- A table looks a text up as its settings ask for. -/
theorem sought_eq_fold (h : ofSettingsIn order settings = .ok table) (text : String) :
    table.sought text = settings.fold (trim text) := by
  obtain ⟨-, -, -, hfolded, -⟩ := ofSettingsIn_eq_ok_iff.mp h
  rw [sought, ResolverSettings.fold, hfolded]

theorem resolve_of_names (hc : settings.Coherent) (h : ofSettingsIn order settings = .ok table)
    (hname : settings.Names token kind) {text : String} (htext : trim text ≠ "")
    (hfold : settings.fold token = settings.fold (trim text)) : table.resolve text = .ok kind := by
  refine resolve_of_find? htext ((find?_ofSettingsIn hc h).mpr ⟨token, hname, ?_⟩)
  rw [hfold, sought_eq_fold h]

theorem resolve_of_not_names (hc : settings.Coherent) (h : ofSettingsIn order settings = .ok table)
    {text : String} (htext : trim text ≠ "") (hfree : ∀ token kind, settings.Names token kind →
      settings.fold token ≠ settings.fold (trim text)) :
    table.resolve text =
      if settings.strict then .error (.unknown (trim text))
      else .ok (.unrecognized (trim text)) := by
  obtain ⟨-, -, -, -, hstrict⟩ := ofSettingsIn_eq_ok_iff.mp h
  rw [hstrict]
  refine resolve_of_find?_eq_none htext ?_
  rw [Option.eq_none_iff_forall_ne_some]
  intro kind hkind
  obtain ⟨token, hname, hfold⟩ := (find?_ofSettingsIn hc h).mp hkind
  exact hfree token kind hname (hfold.trans (sought_eq_fold h text))

/-- The number of tokens in a table is that of the tokens with an operator, as the table keeps
them. -/
theorem size_ofSettingsIn (hc : settings.Coherent) (h : ofSettingsIn order settings = .ok table) :
    table.size = (settings.tokens.image settings.fold).card := by
  have hs := sorted_of_ofSettingsIn h
  obtain ⟨entries, hadd, -⟩ := ofSettingsIn_eq_ok_iff.mp h
  have haliases := addAliases_isOk_iff.mp ⟨entries, hadd⟩
  have htokens : settings.tokens.image settings.fold = (table.entries.map (·.1)).toFinset := by
    ext token
    simp only [Finset.mem_image, List.mem_toFinset, List.mem_map, Prod.exists,
      exists_and_right, exists_eq_right, ← Fields.find?_eq_some_iff hs, find?_ofSettingsIn hc h,
      ResolverSettings.mem_tokens_iff fun entry hentry => (haliases entry hentry).2]
    grind
  rw [htokens, List.toFinset_card_of_nodup (Fields.nodup_names hs), List.length_map, size]

/-- A finished table is settled by which aliases there are. -/
theorem ofSettingsIn_perm {order' : Enumeration} {aliases' : List (String × String)}
    (hc : settings.Coherent) (hperm : aliases'.Perm settings.aliases)
    (h : ofSettingsIn order settings = .ok table) :
    ofSettingsIn order' { settings with aliases := aliases' } = .ok table := by
  have hmem (entry : String × String) : entry ∈ aliases' ↔ entry ∈ settings.aliases :=
    hperm.mem_iff
  have hnames (token : String) (kind : OperatorKind) :
      ResolverSettings.Names { settings with aliases := aliases' } token kind ↔
        settings.Names token kind := ResolverSettings.Names.congr_aliases hmem
  have hc' : ResolverSettings.Coherent { settings with aliases := aliases' } :=
    fun a ha b hb => hc a ((hmem a).mp ha) b ((hmem b).mp hb)
  have hsound := (ofSettingsIn_isOk_iff hc).mp ⟨table, h⟩
  have hsound' : ResolverSettings.Sound { settings with aliases := aliases' } :=
    ⟨fun entry hentry => hsound.targets entry ((hmem entry).mp hentry),
      fun entry hentry => hsound.filled entry ((hmem entry).mp hentry),
      fun token token' kind kind' hkind hkind' => hsound.compatible token token' kind kind'
        ((hnames _ _).mp hkind) ((hnames _ _).mp hkind')⟩
  obtain ⟨table', h'⟩ : ∃ table',
      ofSettingsIn order' { settings with aliases := aliases' } = .ok table' :=
    (ofSettingsIn_isOk_iff hc').mpr hsound'
  have hentries : table'.entries = table.entries := by
    refine Fields.eq_of_find?_eq (sorted_of_ofSettingsIn h') (sorted_of_ofSettingsIn h)
      fun token => Option.ext fun kind => ?_
    rw [find?_ofSettingsIn hc' h', find?_ofSettingsIn hc h]
    simp only [hnames]
    rfl
  obtain ⟨-, -, -, hfolded, hstrict⟩ := ofSettingsIn_eq_ok_iff.mp h
  obtain ⟨-, -, -, hfolded', hstrict'⟩ := ofSettingsIn_eq_ok_iff.mp h'
  obtain ⟨entries, folded, strict⟩ := table
  obtain ⟨entries', folded', strict'⟩ := table'
  cases hentries
  cases hfolded
  cases hstrict
  cases hfolded'
  cases hstrict'
  exact h'

/-- **What a configured resolver means**. If no two aliases are the same but for blanks around them,
there is a table exactly if every alias stands for one of the nine operators, none is blank and
tokens that are kept as one stand for one operator. A table then has one token for each that is
kept, calls a blank text malformed, resolves a text by any token that is kept as the text is, and a
text without such a token as strictness asks. The orders of aliases and tokens are no matter. -/
theorem resolver_meaning (settings : ResolverSettings)
    (distinct : (settings.aliases.map (trim ·.1)).Nodup) :
    ((∃ table, ofSettings settings = .ok table) ↔ settings.Sound) ∧
    (∀ table, ofSettings settings = .ok table →
      table.size = (settings.tokens.image settings.fold).card ∧
      ∀ text,
        (trim text = "" → table.resolve text = .error (.malformed text)) ∧
        (trim text ≠ "" → ∀ token kind, settings.Names token kind →
          settings.fold token = settings.fold (trim text) → table.resolve text = .ok kind) ∧
        (trim text ≠ "" →
          (∀ token kind, settings.Names token kind →
            settings.fold token ≠ settings.fold (trim text)) →
          table.resolve text =
            if settings.strict then .error (.unknown (trim text))
            else .ok (.unrecognized (trim text)))) ∧
    ∀ (order : Enumeration) (aliases : List (String × String)), aliases.Perm settings.aliases →
      ∀ table, ofSettingsIn order { settings with aliases } = .ok table ↔
        ofSettings settings = .ok table := by
  have hc := ResolverSettings.coherent_of_nodup distinct
  simp only [ofSettings_eq]
  refine ⟨ofSettingsIn_isOk_iff hc, fun table h => ⟨size_ofSettingsIn hc h, fun text =>
    ⟨fun hblank => ?_, fun htext token kind hname hfold => ?_, fun htext hfree => ?_⟩⟩,
    fun order aliases hperm table => ⟨fun h => ?_, fun h => ?_⟩⟩
  · exact resolve_blank table hblank
  · exact resolve_of_names hc h hname htext hfold
  · exact resolve_of_not_names hc h htext hfree
  · have hc' : ResolverSettings.Coherent { settings with aliases } :=
      fun a ha b hb => hc a (hperm.mem_iff.mp ha) b (hperm.mem_iff.mp hb)
    have hback : ofSettingsIn .inOrder
        { { settings with aliases } with aliases := settings.aliases } = .ok table :=
      ofSettingsIn_perm hc' hperm.symm h
    exact hback
  · exact ofSettingsIn_perm hc hperm h

/-- Two aliases with blanks around them, and no mercy for unknown tokens. -/
def spaced : ResolverSettings := ⟨true, false, [(" is", "equals"), ("isnt ", "notEquals")]⟩

theorem resolver_meaning_spaced :
    (spaced.aliases.map (trim ·.1)).Nodup ∧ ∃ table, ofSettings spaced = .ok table ∧
      table.size = 33 ∧ table.resolve "is " = .ok (.compare .equals) ∧
      table.resolve " " = .error (.malformed " ") ∧
      table.resolve "Is" = .error (.unknown "Is") := by
  have hdistinct : (spaced.aliases.map (trim ·.1)).Nodup := by decide
  obtain ⟨-, hanswers, -⟩ := resolver_meaning spaced hdistinct
  have hname : spaced.Names "is" (.compare .equals) :=
    .alias (List.mem_cons_self) (by decide) (by decide)
  have hfree : ∀ token kind, spaced.Names token kind → spaced.fold token ≠ spaced.fold "Is" := by
    rintro token kind (⟨mem, rfl, -⟩ | ⟨-, mem⟩)
    · revert mem
      exact (by decide : ∀ entry ∈ spaced.aliases, trim entry.1 ≠ "Is") _
    · exact (by decide : ∀ entry ∈ builtinAliases, entry.1 ≠ "Is") _ mem
  obtain ⟨table, h⟩ : ∃ table, ofSettings spaced = .ok table := ⟨_, rfl⟩
  obtain ⟨hsize, hresolve⟩ := hanswers table h
  refine ⟨hdistinct, table, h, ?_, ?_, (hresolve " ").1 (by decide), ?_⟩
  · rw [hsize]
    decide
  · exact (hresolve "is ").2.1 (by decide) "is" _ hname (by decide)
  · exact (hresolve "Is").2.2 (by decide) hfree

/-! ### Aliases that are honoured -/

/-- **A table honours all the aliases of its settings** exactly if those of one token have one
target; else one of two has been written over the other. -/
theorem resolve_alias_iff (order : Enumeration) (settings : ResolverSettings) (table : AliasTable)
    (h : ofSettingsIn order settings = .ok table) :
    (∀ entry ∈ settings.aliases, ∃ kind, OperatorKind.ofName? entry.2 = some kind ∧
      table.resolve entry.1 = .ok kind) ↔ settings.Coherent := by
  obtain ⟨entries, hadd, -⟩ := ofSettingsIn_eq_ok_iff.mp h
  have haliases := addAliases_isOk_iff.mp ⟨entries, hadd⟩
  constructor
  · intro hall a ha b hb hab
    obtain ⟨kind, hkind, hresolve⟩ := hall a ha
    obtain ⟨kind', hkind', hresolve'⟩ := hall b hb
    have hsame : table.resolve a.1 = table.resolve b.1 := by
      simp only [resolve, hab, if_neg (haliases b hb).1]
    have hkinds : kind = kind' :=
      Except.ok.inj (hresolve.symm.trans (hsame.trans hresolve'))
    rw [← OperatorKind.name_of_ofName? hkind, ← OperatorKind.name_of_ofName? hkind', hkinds]
  · intro hc entry hentry
    obtain ⟨hfilled, kind, hkind⟩ := haliases entry hentry
    exact ⟨kind, hkind, resolve_of_names hc h (.alias hentry rfl hkind) hfilled rfl⟩

/-- Two aliases that are one without the blanks around them, with two targets. -/
def overriding : ResolverSettings := { aliases := [("is", "equals"), (" is", "notEquals")] }

/-- Two targets for a token are not refused: one alias is written over the other. -/
theorem ofSettings_overriding :
    ∃ table, ofSettings overriding = .ok table ∧
      OperatorKind.ofName? "equals" = some (.compare .equals) ∧
      table.resolve "is" = .ok (.compare .notEquals) ∧
      table.resolve " is" = .ok (.compare .notEquals) := by
  refine ⟨_, rfl, ?_, ?_, ?_⟩
  · decide
  · rfl
  · rfl

theorem resolve_alias_iff_overriding :
    ∃ table, ofSettingsIn .inOrder overriding = .ok table ∧
      ¬ ∀ entry ∈ overriding.aliases, ∃ kind, OperatorKind.ofName? entry.2 = some kind ∧
        table.resolve entry.1 = .ok kind := by
  obtain ⟨table, h⟩ : ∃ table, ofSettingsIn .inOrder overriding = .ok table := ⟨_, rfl⟩
  have hincoherent : ¬ overriding.Coherent := fun hc => absurd
    (hc ("is", "equals") (by decide) (" is", "notEquals") (by decide) (by decide)) (by decide)
  exact ⟨table, h, (resolve_alias_iff .inOrder overriding table h).not.mpr hincoherent⟩

end AliasTable

end Conditions
