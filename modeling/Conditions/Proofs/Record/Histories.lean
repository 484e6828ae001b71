import Conditions.Proofs.Json.Derivations
import Conditions.Proofs.Record.Members
import Mathlib.Data.List.Dedup

/-!
# Histories of records

A record may begin with nothing, with writes that are collected, or with the members of a text, and
fields may be written after that (`WrittenBy`). Wherever the writes began and however they came, the
record is what they leave (`WrittenBy.eq_ofWrites`): under each name stands the value of the last
write of the name, and nothing else stands anywhere (`finite_map`).

A text has writes if a record can be read from it, and the record is the one that they leave
(`parse_json_eq_ok_iff`).
-/

namespace Conditions

open Json (IsObjectText IsMember Enclosed quote)

namespace Record

variable {record record' : Record} {writes : List (String × Json)} {name text : String}
  {value : Json}

/-! ### Records as maps -/

/-- Records in which the same stands under each name are one record. -/
theorem eq_of_get?_eq (h : ∀ name, record.get? name = record'.get? name) : record = record' := by
  obtain ⟨fields, hsorted⟩ := record
  obtain ⟨fields', hsorted'⟩ := record'
  obtain rfl : fields = fields' := Fields.eq_of_find?_eq hsorted hsorted' h
  rfl

theorem mem_keys_iff : name ∈ record.keys ↔ record.get? name ≠ none := by
  rw [keys, List.mem_map, Option.ne_none_iff_exists']
  constructor
  · rintro ⟨⟨_, value⟩, hmem, rfl⟩
    exact ⟨value, (Fields.find?_eq_some_iff record.sorted).mpr hmem⟩
  · rintro ⟨value, hget⟩
    exact ⟨(name, value), Fields.mem_of_find? hget, rfl⟩

theorem nodup_keys (record : Record) : record.keys.Nodup := Fields.nodup_names record.sorted

theorem ofJson_ofWrites (writes : List (String × Json)) :
    ofJson (.ofWrites writes) = .ok (ofWrites writes) :=
  congrArg Except.ok (ofWrites_fields (ofWrites writes))

/-- A record is read back from what it is as a value. -/
theorem ofJson_toJson (record : Record) : ofJson record.toJson = .ok record :=
  congrArg Except.ok (ofWrites_fields record)

/-! ### The last of some writes -/

/-- The last of some writes of a name gives it a value. -/
def LastWrite (name : String) (value : Json) (writes : List (String × Json)) : Prop :=
  ∃ before after, writes = before ++ (name, value) :: after ∧ ∀ write ∈ after, write.1 ≠ name

theorem find?_reverse_eq_some_iff :
    (writes.reverse.find? (·.1 = name)).map (·.2) = some value ↔ LastWrite name value writes := by
  simp only [Option.map_eq_some_iff, List.find?_eq_some_iff_append, decide_eq_true_eq]
  constructor
  · rintro ⟨write, ⟨rfl, after, before, hwrites, hafter⟩, rfl⟩
    refine ⟨before.reverse, after.reverse, ?_, fun other hother => ?_⟩
    · rw [← List.reverse_reverse writes, hwrites]
      simp
    · simpa using hafter other (List.mem_reverse.mp hother)
  · rintro ⟨before, after, rfl, hafter⟩
    refine ⟨(name, value), ⟨rfl, after.reverse, before.reverse, by simp, fun other hother => ?_⟩,
      rfl⟩
    simpa using hafter other (List.mem_reverse.mp hother)

theorem get?_ofWrites_eq_some_iff :
    (ofWrites writes).get? name = some value ↔ LastWrite name value writes := by
  rw [get?_ofWrites, find?_reverse_eq_some_iff]

theorem get?_ofWrites_eq_none_iff :
    (ofWrites writes).get? name = none ↔ ∀ write ∈ writes, write.1 ≠ name := by
  rw [get?_ofWrites, Option.map_eq_none_iff, List.find?_eq_none]
  simp

/-- The names that were written are listed, each of them once. -/
theorem perm_keys_ofWrites (writes : List (String × Json)) :
    (ofWrites writes).keys.Perm (writes.map (·.1)).dedup := by
  rw [List.perm_ext_iff_of_nodup (nodup_keys _) (List.nodup_dedup _)]
  intro name
  rw [mem_keys_iff, ne_eq, get?_ofWrites_eq_none_iff]
  simp

/-! ### Records that are read -/

/-- A text has some writes: it is an object with a member for each, in their order, that goes by the
name and has a text of the value. The object itself is one of the lists and objects that may stand
in each other. -/
def IsText (writes : List (String × Json)) (text : String) : Prop :=
  ∃ members, IsObjectText members text ∧ List.Forall₂
    (fun m write => m.IsNamed write.1 ∧ write.2.IsText (Json.nestingLimit - 1) m.value)
    members writes

theorem parse_json_eq_ok_iff_exists : Record.parse .json text = .ok record ↔
    ∃ v, Json.parse text = .ok v ∧ ofJson v = .ok record := by
  show ((Json.parse text).mapError Failure.json >>= fun v =>
    (ofJson v).mapError Failure.notRecord) = _ ↔ _
  simp only [bind_eq_ok_iff, mapError_eq_ok_iff]

/-- **A record is read from a text with writes that leave it**, and from no other text. -/
theorem parse_json_eq_ok_iff : Record.parse .json text = .ok record ↔
    ∃ writes, IsText writes text ∧ record = ofWrites writes := by
  rw [parse_json_eq_ok_iff_exists]
  constructor
  · rintro ⟨v, hv, hrecord⟩
    obtain ⟨core, hcore, hspaced⟩ := Json.parse_eq_ok_iff.mp hv
    cases (hcore : v.IsText (Json.nestingLimit - 1 + 1) core) with
    | null | bool | number | text | array => cases hrecord
    | @object _ members _ object names content =>
      rw [ofJson_ofWrites] at hrecord
      cases hrecord
      refine ⟨_, ⟨_, ⟨core, object, hspaced⟩, ?_⟩, rfl⟩
      exact forall₂_iff_exists_pairs.mpr
        ⟨members, rfl, rfl, fun m hm => ⟨names m hm, content m hm⟩⟩
  · rintro ⟨writes, ⟨_, ⟨core, object, hspaced⟩, hwrites⟩, rfl⟩
    obtain ⟨members, rfl, rfl, hmembers⟩ := forall₂_iff_exists_pairs.mp hwrites
    refine ⟨_, Json.parse_eq_ok_iff.mpr ⟨core, ?_, hspaced⟩, ofJson_ofWrites _⟩
    exact .object object (fun m hm => (hmembers m hm).1) fun m hm => (hmembers m hm).2

/-! ### Histories -/

/-- A record has come about by some writes, in their order. -/
inductive WrittenBy : List (String × Json) → Record → Prop where
  /-- Nothing is written. -/
  | empty : WrittenBy [] .empty
  /-- Writes are collected. -/
  | collected (writes : List (String × Json)) : WrittenBy writes (.ofWrites writes)
  /-- Writes are read from a text. -/
  | parsed {writes : List (String × Json)} {text : String} {record : Record}
    (text_eq : IsText writes text) (read : Record.parse .json text = .ok record) :
    WrittenBy writes record
  /-- One more field is written. -/
  | exchanged {writes : List (String × Json)} {record : Record} (h : WrittenBy writes record)
    (name : String) (value : Json) :
    WrittenBy (writes ++ [(name, value)]) (record.exchange name value).2

/-- One more write is the last of the writes. -/
theorem exchange_ofWrites (writes : List (String × Json)) (name : String) (value : Json) :
    ((ofWrites writes).exchange name value).2 = ofWrites (writes ++ [(name, value)]) := by
  rw [exchange_snd]
  simp only [insert, ofWrites, Fields.ofWrites_concat]

/-- **A record is what its writes leave**, wherever they began. -/
theorem WrittenBy.eq_ofWrites (h : WrittenBy writes record) : record = ofWrites writes := by
  induction h with
  | empty => rfl
  | collected writes => rfl
  | parsed htext hread =>
    exact Except.ok.inj (hread.symm.trans (parse_json_eq_ok_iff.mpr ⟨_, htext, rfl⟩))
  | exchanged _ name value ih => rw [ih, exchange_ofWrites]

/-- **A record is a finite map over its whole history.** -/
theorem finite_map :
    -- a record can be read from the texts that have writes
    (∀ text, (∃ record, Record.parse .json text = .ok record) ↔ ∃ writes, IsText writes text) ∧
    ∀ writes record, WrittenBy writes record →
      -- under a name stands what was written there last, and nothing if nothing was
      (∀ name value, record.get? name = some value ↔ LastWrite name value writes) ∧
      (∀ name, record.get? name = none ↔ ∀ write ∈ writes, write.1 ≠ name) ∧
      -- one more write gives what stood under its name, and leaves what stands under others
      (∀ name value, (record.exchange name value).1 = record.get? name ∧
        ∀ other, other ≠ name →
          (record.exchange name value).2.get? other = record.get? other) ∧
      -- each name that was written is listed once and counted once
      record.keys.Nodup ∧ (∀ name, name ∈ record.keys ↔ ∃ write ∈ writes, write.1 = name) ∧
      record.size = (writes.map (·.1)).dedup.length ∧ (record.isEmpty = true ↔ record.size = 0) ∧
      -- the record is read back from what it is as a value
      ofJson record.toJson = .ok record ∧
      -- two records are one if the last writes of both are the same
      ∀ writes' record', WrittenBy writes' record' →
        ((∀ name value, LastWrite name value writes ↔ LastWrite name value writes') ↔
          record = record') := by
  refine ⟨fun text => ⟨?_, ?_⟩, fun writes record h => ?_⟩
  · rintro ⟨record, hread⟩
    obtain ⟨writes, htext, -⟩ := parse_json_eq_ok_iff.mp hread
    exact ⟨writes, htext⟩
  · rintro ⟨writes, htext⟩
    exact ⟨ofWrites writes, parse_json_eq_ok_iff.mpr ⟨writes, htext, rfl⟩⟩
  · obtain rfl := h.eq_ofWrites
    have hkeys := perm_keys_ofWrites writes
    refine ⟨fun name value => get?_ofWrites_eq_some_iff, fun name => get?_ofWrites_eq_none_iff,
      fun name value => ⟨exchange_fst _ name value, fun other hother => ?_⟩, nodup_keys _,
      fun name => ?_, ?_, List.isEmpty_iff_length_eq_zero, ofJson_toJson _,
      fun writes' record' h' => ?_⟩
    · rw [exchange_snd, get?_insert_of_ne _ hother]
    · rw [hkeys.mem_iff, List.mem_dedup, List.mem_map]
    · rw [← hkeys.length_eq, keys, List.length_map, size]
    · obtain rfl := h'.eq_ofWrites
      simp only [← get?_ofWrites_eq_some_iff]
      constructor
      · exact fun hsame => eq_of_get?_eq fun name => Option.ext (hsame name)
      · intro heq name value
        rw [heq]

/-- A record with a field that comes twice, and with a name that looks like a path. -/
def dottedText : String := "\x7b\"a.b\":true,\"a\":\x7b\"b\":\"x\"\x7d,\"a.b\":null\x7d"

/-- Its writes. -/
def dottedWrites : List (String × Json) :=
  [("a.b", .bool true), ("a", .object [("b", .text "x")]), ("a.b", .null)]

theorem isText_nested :
    (Json.object [("b", .text "x")]).IsText 126 "\x7b\"b\":\"x\"\x7d".toList := by
  have hfield : Json.IsField 125 ("b", .text "x") _ :=
    ⟨⟨"b".toList, quote "x".toList⟩, ⟨Json.unescapes_flatMap "b".toList,
      .text (Json.unescapes_flatMap "x".toList)⟩, Json.isMember_self _⟩
  exact Json.isText_object (.cons hfield .nil)

theorem isText_dotted : IsText dottedWrites dottedText := by
  have hobject : Enclosed '\x7b' '\x7d' IsMember [⟨"a.b".toList, "true".toList⟩,
      ⟨"a".toList, "\x7b\"b\":\"x\"\x7d".toList⟩, ⟨"a.b".toList, "null".toList⟩] _ :=
    .cons (Json.isMember_self _) (.cons (Json.isMember_self _) (.cons (Json.isMember_self _) .nil))
  have hname (name : String) := Json.unescapes_flatMap name.toList
  refine ⟨_, ⟨_, ⟨show Enclosed _ _ _ _ dottedText.toList from hobject, ?_, ?_⟩, .self _⟩, ?_⟩
  · simp only [List.forall_mem_cons]
    exact ⟨(hname "a.b").isQuoted, (hname "a").isQuoted, (hname "a.b").isQuoted,
      List.forall_mem_nil _⟩
  · simp only [List.forall_mem_cons]
    exact ⟨.bool true, isText_nested.isJson, .null, List.forall_mem_nil _⟩
  · exact .cons ⟨hname "a.b", .bool true⟩ (.cons ⟨hname "a", isText_nested⟩
      (.cons ⟨hname "a.b", .null⟩ .nil))

theorem finite_map_dotted : ∃ record, Record.parse .json dottedText = .ok record ∧
    -- a field comes twice, and the last of its values stands, which is null
    record.get? "a.b" = some .null ∧ record.get? "b" = none ∧ record.size = 2 ∧
    -- what stood under a name is given when the name is written once more
    (record.exchange "a" .null).1 = some (.object [("b", .text "x")]) ∧
    -- two fields that are collected make the same record
    (record.exchange "a" .null).2 = ofWrites [("a", .null), ("a.b", .null)] := by
  obtain ⟨htexts, hhistories⟩ := finite_map
  obtain ⟨record, hread⟩ := (htexts dottedText).mpr ⟨_, isText_dotted⟩
  have hparsed := WrittenBy.parsed isText_dotted hread
  obtain ⟨hget, hnone, hexchange, -, -, hsize, -⟩ := hhistories _ _ hparsed
  obtain ⟨-, -, -, -, -, -, -, -, hsame⟩ := hhistories _ _ (hparsed.exchanged "a" .null)
  refine ⟨record, hread, (hget _ _).mpr ?_, (hnone _).mpr ?_, hsize.trans ?_,
    (hexchange _ _).1.trans ((hget _ _).mpr ?_), (hsame _ _ (.collected _)).mp ?_⟩
  · exact ⟨[("a.b", .bool true), ("a", .object [("b", .text "x")])], [], rfl, nofun⟩
  · simp [dottedWrites]
  · rfl
  · exact ⟨[("a.b", .bool true)], [("a.b", .null)], rfl, by simp⟩
  · intro name value
    simp only [← get?_ofWrites_eq_some_iff]
    rfl

end Record

end Conditions
