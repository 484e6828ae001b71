import Conditions.Proofs.Results
import Conditions.Resolver
import Mathlib.Data.List.Nodup

/-!
# How tables are built

A table is built in two passes: the aliases of the settings are written over the built-in ones, and
then, if capitals do not count, every token of the result is written in small letters. The order of
a pass is that in which the fields happen to be listed, so both passes are looked at in any order:
that of the aliases is the order of the list in the settings, that of the tokens an `Enumeration`.

What a pass leaves is told by what it answers: `find?_addAliases` and `find?_foldEntries` for the
two passes, and `addAliases_isOk_iff` and `foldEntries_isOk_iff` say when they come to their end.
-/

namespace Conditions

/-! ### Names of operators -/

namespace OperatorKind

theorem name_of_ofName? {name : String} {kind : OperatorKind} (h : ofName? name = some kind) :
    kind.name = name := by
  simpa using List.find?_some h

theorem ofName?_eq_some_iff_mem (name : String) :
    (∃ kind, ofName? name = some kind) ↔ name ∈ known.map OperatorKind.name := by
  constructor
  · rintro ⟨kind, h⟩
    exact name_of_ofName? h ▸ List.mem_map_of_mem (List.mem_of_find?_eq_some h)
  · intro h
    obtain ⟨kind, hkind, rfl⟩ := List.mem_map.mp h
    exact Option.isSome_iff_exists.mp (List.find?_isSome.mpr ⟨kind, hkind, by simp⟩)

end OperatorKind

namespace AliasTable

/-! ### The built-in table -/

theorem find?_builtin {token : String} {kind : OperatorKind} :
    builtin.entries.find? token = some kind ↔ (token, kind) ∈ builtinAliases := by
  have hnodup : (builtinAliases.map (·.1)).Nodup := by decide
  rw [builtin, Fields.find?_ofWrites, Option.map_eq_some_iff]
  constructor
  · rintro ⟨entry, hentry, rfl⟩
    have htoken : entry.1 = token := by simpa using List.find?_some hentry
    exact htoken ▸ List.mem_reverse.mp (List.mem_of_find?_eq_some hentry)
  · intro hmem
    cases hfind : builtinAliases.reverse.find? (·.1 = token) with
    | none => simpa using List.find?_eq_none.mp hfind _ (List.mem_reverse.mpr hmem)
    | some entry =>
      have hentry := List.mem_reverse.mp (List.mem_of_find?_eq_some hfind)
      have htoken : entry.1 = token := by simpa using List.find?_some hfind
      exact ⟨entry, rfl, congrArg Prod.snd (List.inj_on_of_nodup_map hnodup hentry hmem htoken)⟩

/-! ### Looking texts up -/

/-- The token that a text is looked up as. -/
def sought (table : AliasTable) (text : String) : String :=
  if table.folded then lowercase (trim text) else trim text

theorem resolve_blank (table : AliasTable) {text : String} (h : trim text = "") :
    table.resolve text = .error (.malformed text) := if_pos h

theorem resolve_of_find? {table : AliasTable} {text : String} {kind : OperatorKind}
    (htext : trim text ≠ "") (h : table.entries.find? (table.sought text) = some kind) :
    table.resolve text = .ok kind := by
  unfold sought at h
  rw [resolve, if_neg htext, h]

theorem resolve_of_find?_eq_none {table : AliasTable} {text : String} (htext : trim text ≠ "")
    (h : table.entries.find? (table.sought text) = none) :
    table.resolve text =
      if table.strict then .error (.unknown (trim text))
      else .ok (.unrecognized (trim text)) := by
  unfold sought at h
  rw [resolve, if_neg htext, h]

/-! ### The first pass -/

/-- Writes the aliases of a list over a table. -/
def addAliases (entries : Fields OperatorKind) (aliases : List (String × String)) :
    Except AliasError (Fields OperatorKind) :=
  aliases.foldlM (fun entries entry => addAlias entries entry.1 entry.2) entries

variable {entries entries' : Fields OperatorKind} {token target : String} {kind : OperatorKind}
  {aliases : List (String × String)}

theorem addAlias_eq_ok_iff : addAlias entries token target = .ok entries' ↔
    trim token ≠ "" ∧ ∃ kind, OperatorKind.ofName? target = some kind ∧
      entries.put (trim token) kind = entries' := by
  unfold addAlias
  cases OperatorKind.ofName? target with
  | none => simp
  | some kind => by_cases h : trim token = "" <;> simp [h]

theorem addAliases_cons {entry : String × String} :
    addAliases entries (entry :: aliases) =
      addAlias entries entry.1 entry.2 >>= (addAliases · aliases) := List.foldlM_cons

theorem addAliases_cons_eq_ok_iff {entry : String × String} :
    addAliases entries (entry :: aliases) = .ok entries' ↔
      trim entry.1 ≠ "" ∧ ∃ kind, OperatorKind.ofName? entry.2 = some kind ∧
        addAliases (entries.put (trim entry.1) kind) aliases = .ok entries' := by
  rw [addAliases_cons, bind_eq_ok_iff]
  simp only [addAlias_eq_ok_iff]
  grind

/-- The first pass comes to its end if every alias is filled and has an operator. -/
theorem addAliases_isOk_iff : (∃ entries', addAliases entries aliases = .ok entries') ↔
    ∀ entry ∈ aliases, trim entry.1 ≠ "" ∧ ∃ kind, OperatorKind.ofName? entry.2 = some kind := by
  induction aliases generalizing entries with
  | nil => simp [addAliases, pure, Except.pure]
  | cons entry aliases ih =>
    simp only [addAliases_cons_eq_ok_iff, List.forall_mem_cons]
    constructor
    · rintro ⟨entries', htoken, kind, hkind, hrest⟩
      exact ⟨⟨htoken, kind, hkind⟩, ih.mp ⟨entries', hrest⟩⟩
    · rintro ⟨⟨htoken, kind, hkind⟩, hrest⟩
      obtain ⟨entries', h⟩ := ih.mpr hrest
      exact ⟨entries', htoken, kind, hkind, h⟩

theorem sorted_addAliases (h : addAliases entries aliases = .ok entries') (hs : entries.Sorted) :
    entries'.Sorted := by
  induction aliases generalizing entries with
  | nil =>
    cases h
    exact hs
  | cons entry aliases ih =>
    obtain ⟨-, kind, -, hrest⟩ := addAliases_cons_eq_ok_iff.mp h
    exact ih hrest (Fields.sorted_put hs _ _)

/-- Of the aliases of a token the last counts, and what the table held before counts if there is
none. -/
theorem find?_addAliases (h : addAliases entries aliases = .ok entries') (token : String) :
    entries'.find? token =
      match aliases.reverse.find? (trim ·.1 = token) with
      | some entry => OperatorKind.ofName? entry.2
      | none => entries.find? token := by
  induction aliases generalizing entries with
  | nil =>
    cases h
    rfl
  | cons entry aliases ih =>
    obtain ⟨-, kind, hkind, hrest⟩ := addAliases_cons_eq_ok_iff.mp h
    rw [ih hrest, List.reverse_cons, List.find?_append]
    cases aliases.reverse.find? (trim ·.1 = token) with
    | some later => rfl
    | none =>
      by_cases htoken : trim entry.1 = token
      · simp [htoken, hkind, Fields.find?_put_self]
      · simp [htoken, Fields.find?_put_of_ne (Ne.symm htoken)]

/-! ### The second pass -/

/-- Writes the entries of a list in small letters over a table. -/
def foldEntries (entries : Fields OperatorKind) (list : List (String × OperatorKind)) :
    Except AliasError (Fields OperatorKind) :=
  list.foldlM (fun folded entry => foldEntry folded entry.1 entry.2) entries

variable {list : List (String × OperatorKind)}

theorem foldEntry_eq_ok_iff : foldEntry entries token kind = .ok entries' ↔
    (∀ other, entries.find? (lowercase token) = some other → other = kind) ∧
      entries.put (lowercase token) kind = entries' := by
  unfold foldEntry
  cases entries.find? (lowercase token) with
  | none => simp
  | some other => by_cases h : other = kind <;> simp [h]

theorem foldEntries_cons_eq_ok_iff {entry : String × OperatorKind} :
    foldEntries entries (entry :: list) = .ok entries' ↔
      (∀ other, entries.find? (lowercase entry.1) = some other → other = entry.2) ∧
        foldEntries (entries.put (lowercase entry.1) entry.2) list = .ok entries' := by
  have hcons : foldEntries entries (entry :: list) =
      foldEntry entries entry.1 entry.2 >>= (foldEntries · list) := List.foldlM_cons
  rw [hcons, bind_eq_ok_iff]
  simp only [foldEntry_eq_ok_iff]
  grind

theorem sorted_foldEntries (h : foldEntries entries list = .ok entries') (hs : entries.Sorted) :
    entries'.Sorted := by
  induction list generalizing entries with
  | nil =>
    cases h
    exact hs
  | cons entry list ih =>
    exact ih (foldEntries_cons_eq_ok_iff.mp h).2 (Fields.sorted_put hs _ _)

/-- After the second pass a token stands for what it stood for, and for what any of the entries in
small letters stands for. -/
theorem find?_foldEntries (h : foldEntries entries list = .ok entries') (token : String)
    (kind : OperatorKind) : entries'.find? token = some kind ↔
      entries.find? token = some kind ∨ ∃ entry ∈ list, lowercase entry.1 = token ∧
        entry.2 = kind := by
  induction list generalizing entries with
  | nil =>
    cases h
    simp
  | cons entry list ih =>
    obtain ⟨hfree, hrest⟩ := foldEntries_cons_eq_ok_iff.mp h
    rw [ih hrest, Fields.find?_put]
    by_cases htoken : token = lowercase entry.1
    · subst htoken
      have := hfree kind
      grind
    · simp [htoken, Ne.symm htoken]

/-- The second pass comes to its end if tokens that are one in small letters stand for one
operator. -/
theorem foldEntries_isOk_iff : (∃ entries', foldEntries [] list = .ok entries') ↔
    ∀ a ∈ list, ∀ b ∈ list, lowercase a.1 = lowercase b.1 → a.2 = b.2 := by
  constructor
  · rintro ⟨entries', h⟩ a ha b hb hab
    have ha' := (find?_foldEntries h _ _).mpr (.inr ⟨a, ha, hab, rfl⟩)
    have hb' := (find?_foldEntries h _ _).mpr (.inr ⟨b, hb, rfl, rfl⟩)
    exact Option.some_inj.mp (ha'.symm.trans hb')
  · intro hsame
    -- the entries written so far agree with those that are still to come
    suffices h : ∀ (entries : Fields OperatorKind), (∀ b ∈ list, ∀ other,
        entries.find? (lowercase b.1) = some other → other = b.2) →
        ∃ entries', foldEntries entries list = .ok entries' from h [] (by simp)
    induction list with
    | nil => exact fun entries _ => ⟨entries, rfl⟩
    | cons entry list ih =>
      intro entries hagree
      simp only [foldEntries_cons_eq_ok_iff]
      have hrest : ∀ b ∈ list, ∀ other,
          (entries.put (lowercase entry.1) entry.2).find? (lowercase b.1) = some other →
          other = b.2 := by
        intro b hb other hother
        rw [Fields.find?_put] at hother
        split at hother
        · next heq =>
          cases hother
          exact hsame entry List.mem_cons_self b (List.mem_cons_of_mem _ hb) heq.symm
        · exact hagree b (List.mem_cons_of_mem _ hb) other hother
      obtain ⟨entries', h⟩ := ih (fun a ha b hb => hsame a (List.mem_cons_of_mem _ ha) b
        (List.mem_cons_of_mem _ hb)) _ hrest
      exact ⟨entries', hagree entry List.mem_cons_self, h⟩

/-! ### Both passes -/

/-- An order in which the tokens of a table are listed. -/
structure Enumeration where
  /-- The tokens of a table with their operators, in that order. -/
  list : Fields OperatorKind → List (String × OperatorKind)
  /-- Nothing is left out and nothing comes twice. -/
  perm : ∀ entries, (list entries).Perm entries

/-- The order of the tokens themselves. -/
def Enumeration.inOrder : Enumeration := ⟨id, fun _ => .refl _⟩

/-- Puts the tokens of a table in small letters, if capitals do not count. -/
def foldIf (order : Enumeration) (caseInsensitive : Bool) (entries : Fields OperatorKind) :
    Except AliasError (Fields OperatorKind) :=
  if caseInsensitive then foldEntries [] (order.list entries) else .ok entries

/-- The table for some settings, when the second pass goes through the tokens in some order. -/
def ofSettingsIn (order : Enumeration) (settings : ResolverSettings) :
    Except AliasError AliasTable := do
  let entries ← addAliases builtin.entries settings.aliases
  let entries ← foldIf order settings.caseInsensitive entries
  .ok ⟨entries, settings.caseInsensitive, settings.strict⟩

theorem ofSettings_eq (settings : ResolverSettings) :
    ofSettings settings = ofSettingsIn .inOrder settings := by
  obtain ⟨strict, caseInsensitive, aliases⟩ := settings
  cases caseInsensitive <;> rfl

variable {order : Enumeration} {settings : ResolverSettings} {table : AliasTable}

theorem ofSettingsIn_eq_ok_iff : ofSettingsIn order settings = .ok table ↔
    ∃ entries, addAliases builtin.entries settings.aliases = .ok entries ∧
      foldIf order settings.caseInsensitive entries = .ok table.entries ∧
      settings.caseInsensitive = table.folded ∧ settings.strict = table.strict := by
  obtain ⟨entries, folded, strict⟩ := table
  simp only [ofSettingsIn, bind_eq_ok_iff, Except.ok.injEq, AliasTable.mk.injEq]
  grind

/-- Every token comes once in a table. -/
theorem sorted_of_ofSettingsIn (h : ofSettingsIn order settings = .ok table) :
    table.entries.Sorted := by
  obtain ⟨entries, hadd, hfold, -⟩ := ofSettingsIn_eq_ok_iff.mp h
  unfold foldIf at hfold
  split at hfold
  · exact sorted_foldEntries hfold List.Pairwise.nil
  · cases hfold
    exact sorted_addAliases hadd (Fields.sorted_ofWrites builtinAliases)

/-- A table has none but the nine operators. -/
theorem mem_known_of_find? (h : ofSettingsIn order settings = .ok table)
    (hfind : table.entries.find? token = some kind) : kind ∈ OperatorKind.known := by
  obtain ⟨entries, hadd, hfold, -⟩ := ofSettingsIn_eq_ok_iff.mp h
  have hentries {token : String} {kind : OperatorKind} (hentry : entries.find? token = some kind) :
      kind ∈ OperatorKind.known := by
    rw [find?_addAliases hadd] at hentry
    split at hentry
    · exact List.mem_of_find?_eq_some hentry
    · have hbuiltin : ∀ entry ∈ builtinAliases, entry.2 ∈ OperatorKind.known := by decide
      exact hbuiltin _ (find?_builtin.mp hentry)
  have hs : entries.Sorted := sorted_addAliases hadd (Fields.sorted_ofWrites builtinAliases)
  unfold foldIf at hfold
  split at hfold
  · rcases (find?_foldEntries hfold _ _).mp hfind with hnil | ⟨entry, hentry, -, rfl⟩
    · cases hnil
    · exact hentries ((Fields.find?_eq_some_iff hs).mpr ((order.perm entries).mem_iff.mp hentry))
  · cases hfold
    exact hentries hfind

end AliasTable

end Conditions
