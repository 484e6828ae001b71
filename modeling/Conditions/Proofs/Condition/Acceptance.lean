import Conditions.Proofs.Condition.RoundTrip
import Conditions.Proofs.Evaluation.DepthLimit
import Conditions.Proofs.Json.Contents

/-!
# Accepted conditions

A condition that is read from a text can be written within the nesting that the text itself was
allowed, and its numbers are finite (`readsFitting`). It may have been given by lists in place of
objects, with members that are passed over, and with null for what is absent: the object that is
written for it has a list or an object only where the text had one that was read, so it is nested no
deeper than what was read of the text. So an accepted condition is read back from what is written
for it exactly if its numbers survive, and never lies too deep for an evaluation that allows as much
(`parse_accepted`).
-/

namespace Conditions

open Json (Tree Survives nesting itemsNesting textNesting)

namespace Condition

variable {room : Nat} {c : Condition} {cs : List Condition}

/-! ### Conditions that fit -/

/-- A condition with finite numbers that fits within a depth of nesting. It takes one level itself,
and so does the list in it. -/
inductive Fits : Nat → Condition → Prop where
  /-- The number of a node is finite, and there is room for what the node carries. -/
  | node {room : Nat} {c : Condition}
    (value : ∀ x, c.value = some (.number x) → x.isFinite = true)
    (list : ∀ cs, c.conditions = some cs → 1 ≤ room)
    (conditions : ∀ cs, c.conditions = some cs → ∀ d ∈ cs, Fits (room - 1) d)
    (condition : ∀ d, c.condition = some d → Fits room d) : Fits (room + 1) c

theorem fits_ofToken (room : Nat) (op : String) : Fits (room + 1) (ofToken op) :=
  .node nofun nofun nofun nofun

theorem Fits.finite (h : Fits room c) : c.Finite := by
  induction h with
  | node value _ _ _ ihs ih => exact .node value ihs ih

theorem listDepth_le {bound : Nat} (h : ∀ c ∈ cs, c.depth ≤ bound) : listDepth cs ≤ bound := by
  induction cs with
  | nil => exact Nat.zero_le _
  | cons c cs ih =>
    obtain ⟨hc, hcs⟩ := List.forall_mem_cons.mp h
    exact Nat.max_le.mpr ⟨hc, ih hcs⟩

/-- Every condition takes a level, so no path down is longer than the room. -/
theorem Fits.depth_le (h : Fits room c) : c.depth ≤ room := by
  induction h with
  | @node room c value list _ _ ihs ih =>
    obtain ⟨op, property, literal, conditions, condition⟩ := c
    have hlist : listDepth? conditions ≤ room := by
      cases conditions with
      | none => exact Nat.zero_le _
      | some cs =>
        have hbelow := listDepth_le (ihs cs rfl)
        exact hbelow.trans (Nat.sub_le _ _)
    have hone : optionDepth condition ≤ room := by
      cases condition with
      | none => exact Nat.zero_le _
      | some d => exact ih d rfl
    exact Nat.succ_le_succ (Nat.max_le.mpr ⟨hlist, hone⟩)

theorem itemsNesting_listToJson_le {bound : Nat} (h : ∀ c ∈ cs, nesting c.toJson ≤ bound) :
    itemsNesting (listToJson cs) ≤ bound := by
  induction cs with
  | nil => exact Nat.zero_le _
  | cons c cs ih =>
    obtain ⟨hc, hcs⟩ := List.forall_mem_cons.mp h
    exact Nat.max_le.mpr ⟨hc, ih hcs⟩

/-- What is written for a condition is nested no deeper than the room. -/
theorem Fits.nesting_le (h : Fits room c) : nesting c.toJson ≤ room := by
  induction h with
  | @node room c value list _ _ ihs ih =>
    have hlist : valueNesting (listToJson? c.conditions) ≤ room := by
      cases hcs : c.conditions with
      | none => exact Nat.zero_le _
      | some cs =>
        have hroom := list cs hcs
        have hitems := itemsNesting_listToJson_le (ihs cs hcs)
        rw [listToJson?, valueNesting, Option.elim_some, nesting]
        omega
    have hone : valueNesting (optionToJson c.condition) ≤ room := by
      cases hd : c.condition with
      | none => exact Nat.zero_le _
      | some d => exact ih d hd
    rw [nesting_toJson]
    exact Nat.succ_le_succ (Nat.max_le.mpr ⟨hlist, hone⟩)

/-! ### What is read fits -/

/-- A literal that is read is finite. -/
theorem ensures_literal {tree : Tree} (h : tree.NumbersKept) (room : Nat) :
    Ensures (tree.literal room) fun literal => ∀ x, literal = .number x → x.isFinite = true := by
  refine (Tree.ensures_toJson h room).bind fun v hv => ?_
  cases hv with
  | null | bool | text => exact ensures_ok nofun
  | @number n hn =>
    refine ensures_ok ?_
    rintro _ ⟨⟩
    exact Json.isFinite_toBinary64 hn
  | array | object => exact ensures_error _

/-- The conditions of a list, if the list itself has room. -/
def ListFits (room : Nat) (cs : List Condition) : Prop := 1 ≤ room ∧ ∀ c ∈ cs, Fits (room - 1) c

/-- The readers read conditions that fit, within a depth of nesting. -/
structure ReadsFitting (room : Nat) : Prop where
  /-- So a condition. -/
  one {tree : Tree} (h : tree.NumbersKept) : Ensures (ofTree room tree) (Fits room)
  /-- So the conditions of a list. -/
  list {tree : Tree} (h : tree.NumbersKept) : Ensures (listOfTree room tree) (ListFits room)

theorem readsFitting_zero : ReadsFitting 0 where
  one _ := ensures_error _
  list {tree} _ := by cases tree <;> exact ensures_error _

namespace ReadsFitting

variable {tree : Tree} (reads : ReadsFitting room) (h : tree.NumbersKept)
include reads h

/-- A part that is read changes a condition that fits to one that fits. -/
theorem changesKeep : Tree.ChangesKeep (readPart room) (Fits (room + 1)) tree := by
  rintro (_ | _ | _ | _ | _)
  case op =>
    refine (ensures_true tree.string).bind fun op _ => ensures_ok ?_
    rintro _ ⟨value, list, conditions, condition⟩
    exact .node value list conditions condition
  case property =>
    refine (ensures_true (tree.optional Tree.string)).bind fun property _ => ensures_ok ?_
    rintro _ ⟨value, list, conditions, condition⟩
    exact .node value list conditions condition
  case value =>
    refine (ensures_literal h room).bind fun literal hliteral => ensures_ok ?_
    rintro _ ⟨-, list, conditions, condition⟩
    exact .node (fun x hx => hliteral x (Option.some.inj hx)) list conditions condition
  case conditions =>
    refine (Tree.ensures_optional (reads.list h)).bind fun found hfound => ensures_ok ?_
    rintro _ ⟨value, -, -, condition⟩
    exact .node value (fun cs hcs => (hfound cs hcs).1) (fun cs hcs => (hfound cs hcs).2) condition
  case condition =>
    refine (Tree.ensures_optional (reads.one h)).bind fun found hfound => ensures_ok ?_
    rintro _ ⟨value, list, conditions, -⟩
    exact .node value list conditions hfound

theorem one_succ : Ensures (ofTree (room + 1) tree) (Fits (room + 1)) := by
  rw [ofTree_succ]
  refine Tree.ensures_shape parts partNames (fun part hpart => ?_) (fits_ofToken room "")
  exact reads.changesKeep (h.children part hpart)

theorem list_succ : Ensures (listOfTree (room + 1) tree) (ListFits (room + 1)) := by
  cases h with
  | @array items hitems close =>
    rw [listOfTree]
    refine (ensures_mapM fun item hitem => reads.one (hitems item hitem)).bind fun cs hcs => ?_
    exact ensures_checked close ⟨Nat.le_add_left 1 room, hcs⟩
  | missing | null | bool | word | number | text | object => exact ensures_error _

end ReadsFitting

/-- **What is read fits.** -/
theorem readsFitting (room : Nat) : ReadsFitting room := by
  induction room with
  | zero => exact readsFitting_zero
  | succ room ih => exact ⟨ih.one_succ, ih.list_succ⟩

theorem ensures_parseJson (text : String) : Ensures (parseJson text) (Fits Json.nestingLimit) :=
  Json.ensures_decode ((readsFitting Json.nestingLimit).one (Json.numbersKept_read text))

/-- A condition that fits is read back from its text exactly if its numbers survive. -/
theorem parse_serialize_of_fits (h : Fits Json.nestingLimit c) :
    parse .json c.serialize = .ok c ↔ ∀ x ∈ c.numbers, Survives x := by
  have htext : textNesting c.serialize ≤ Json.nestingLimit := by
    rw [serialize, Json.textNesting_compact (allKept_toJson c)]
    exact h.nesting_le
  rw [parse, ← reread_eq_stored_iff, parseJson_serialize, if_pos htext,
    (stored_eq_self_iff c).mpr h.finite]
  cases c.reread <;> simp [orMalformed, Except.mapError]

theorem parse_json_eq_ok_iff {text : String} :
    parse .json text = .ok c ↔ parseJson text = .ok c := by
  rw [parse]
  cases parseJson text <;> simp [Except.mapError]

/-- **Accepted conditions are stable**. A condition that is accepted, however its text presents it,
is at most 127 nodes deep and has finite numbers, and it is read back from what is written for it
exactly if these survive; so no evaluation that allows as much finds it too deep. -/
theorem parse_accepted {text : String} {c : Condition} (h : parse .json text = .ok c) :
    c.depth ≤ 127 ∧ c.Finite ∧
    (parse .json c.serialize = .ok c ↔ ∀ x ∈ c.numbers, Survives x) ∧
    ∀ (e : Evaluator) (record : Record), (∀ limit, e.maxDepth = some limit → 127 ≤ limit) →
      ∀ other, e.evaluate record c ≠ .error (.tooDeep other) := by
  have hfits : Fits Json.nestingLimit c := ensures_parseJson text c (parse_json_eq_ok_iff.mp h)
  have hdepth : c.depth ≤ 127 := hfits.depth_le
  refine ⟨hdepth, hfits.finite, parse_serialize_of_fits hfits, fun e record hlimit => ?_⟩
  exact Evaluator.outcome_ne_tooDeep fun limit hm => hdepth.trans (hlimit limit hm)

/-- A condition with a comparison given by position, and with a member that is passed over although
its number is too large to have a value. -/
def positionalText : String :=
  "\x7b\"note\": [1e999], \"operator\": \"and\", \"conditions\": [[\"equals\", \"a\", -25e-1]]\x7d"

theorem parse_accepted_positional : ∃ c, parse .json positionalText = .ok c ∧
    c.serialize = "\x7b\"op\":\"and\",\"conditions\":" ++
      "[\x7b\"op\":\"equals\",\"property\":\"a\",\"value\":-2.5\x7d]\x7d" ∧
    c.depth ≤ 127 ∧ c.Finite ∧ parse .json c.serialize = .ok c ∧
    ∀ record other, (Evaluator.standard.withMaxDepth (some 127)).evaluate record c ≠
      .error (.tooDeep other) := by
  have hread : (parse .json positionalText).toOption.map (fun c => (c.serialize, c.numbers)) =
      some ("\x7b\"op\":\"and\",\"conditions\":" ++
        "[\x7b\"op\":\"equals\",\"property\":\"a\",\"value\":-2.5\x7d]\x7d",
        [⟨0xc004000000000000⟩]) := by
    decide +kernel
  cases hparse : parse .json positionalText with
  | error failure =>
    rw [hparse] at hread
    cases hread
  | ok c =>
    rw [hparse] at hread
    obtain ⟨htext, hnumbers⟩ := Prod.mk.inj (Option.some.inj hread)
    have hsurvive : ∀ x ∈ c.numbers, Survives x := by
      rw [hnumbers]
      exact List.forall_mem_singleton.mpr (by decide +kernel)
    obtain ⟨hdepth, hfinite, hback, hdeep⟩ := parse_accepted hparse
    refine ⟨c, rfl, htext, hdepth, hfinite, hback.mpr hsurvive, fun record other => ?_⟩
    refine hdeep _ record ?_ other
    rintro _ ⟨⟩
    exact Nat.le_refl 127

end Condition

end Conditions
