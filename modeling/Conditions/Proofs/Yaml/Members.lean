import Conditions.Proofs.Record.Members
import Conditions.Proofs.Yaml.Shapes

/-!
# Scalars that are members of a document

A shape takes from a member of a mapping what its field takes, since no field comes twice
(`gives_shape_of_member`), and any other value takes the last member of a name
(`Record.get?_of_scalarOf?`). So where the member is a scalar, a condition and a record take what
the scalar stands for.
-/

namespace Conditions

namespace Yaml

/-! ### The member of a name -/

namespace Document

/-- The text of a node that is a scalar. -/
def text? (doc : Document) (node : Node) : Option String :=
  match doc.target? node with
  | some (.scalar s) => some s.text
  | _ => none

/-- The value under a name of a mapping, the last standing. -/
def member? (doc : Document) (node : Node) (name : String) : Option Node :=
  match doc.target? node with
  | some (.mapping _ members) =>
    (members.reverse.find? fun m => doc.text? m.1 = some name).map (·.2)
  | _ => none

/-- The scalar under a name of the root. -/
def scalar? (doc : Document) (name : String) : Option Scalar :=
  match (doc.member? doc.root name).bind doc.target? with
  | some (.scalar s) => some s
  | _ => none

variable {doc : Document} {node value : Node} {name text : String} {s : Scalar}

theorem text?_eq_some_iff : doc.text? node = some text ↔ doc.IsText node text := by
  unfold text? IsText
  cases doc.target? node with
  | none => exact ⟨nofun, fun ⟨_, h, _⟩ => nomatch h⟩
  | some target =>
    cases target with
    | scalar s =>
      constructor
      · rintro ⟨⟩
        exact ⟨s, rfl, rfl⟩
      · rintro ⟨_, ⟨⟩, rfl⟩
        rfl
    | reference | sequence | mapping => exact ⟨nofun, fun ⟨_, h, _⟩ => nomatch h⟩

theorem exists_members_of_member? (h : doc.member? node name = some value) :
    ∃ tag members key, doc.target? node = some (.mapping tag members) ∧
      members.reverse.find? (fun m => doc.text? m.1 = some name) = some (key, value) := by
  unfold member? at h
  split at h
  · next tag members htarget =>
    obtain ⟨⟨key, _⟩, hfind, rfl⟩ := Option.map_eq_some_iff.mp h
    exact ⟨tag, members, key, htarget, hfind⟩
  · cases h

theorem exists_member_of_scalar? (h : doc.scalar? name = some s) :
    ∃ value, doc.member? doc.root name = some value ∧ doc.target? value = some (.scalar s) := by
  unfold scalar? at h
  split at h
  · next hnode =>
    cases h
    exact Option.bind_eq_some_iff.mp hnode
  · cases h

theorem hasMember_of_member? (h : doc.member? node name = some value) :
    doc.HasMember node name value := by
  obtain ⟨tag, members, key, htarget, hfind⟩ := exists_members_of_member? h
  have htext := List.find?_some hfind
  exact ⟨tag, members, key, htarget, List.mem_reverse.mp (List.mem_of_find?_eq_some hfind),
    text?_eq_some_iff.mp (of_decide_eq_true htext)⟩

end Document

namespace Decode

variable {α β φ : Type} {P : α → Prop} {doc : Document} {node : Node}

/-! ### Shapes -/

section Shapes

variable [DecidableEq φ] {fields : List (String × φ)} {read : φ → Node → Decode (α → α)}
  {field : φ}

/-- The members after the one for a field are for other fields. -/
theorem gives_members_after {seen : List φ} (hseen : field ∈ seen)
    (hkeep : ∀ other ≠ field, ∀ value,
      Gives (read other value) fun change => ∀ a, P a → P (change a))
    {start : α} (hstart : P start) (rest : List (Node × Node)) :
    Gives (members doc fields read seen start rest) P := by
  induction rest generalizing seen start with
  | nil => exact gives_pure hstart
  | cons member rest ih =>
    rw [members]
    refine (gives_true _).bind fun name _ => ?_
    split
    · exact ih hseen hstart
    · next other _ =>
      split
      · exact gives_throw_bind .duplicate _
      · next hnew =>
        have hother : other ≠ field := fun heq => hnew (heq ▸ hseen)
        exact (hkeep other hother member.2).bind fun change hchange =>
          ih (List.mem_cons_of_mem other hseen) (hchange start hstart)

theorem gives_members_of_mem {name : String} {key value : Node} (hname : doc.IsText key name)
    (hfield : fields.lookup name = some field)
    (hread : Gives (read field value) fun change => ∀ a, P (change a))
    (hkeep : ∀ other ≠ field, ∀ value,
      Gives (read other value) fun change => ∀ a, P a → P (change a))
    {rest : List (Node × Node)} (hmem : (key, value) ∈ rest) (seen : List φ) (start : α) :
    Gives (members doc fields read seen start rest) P := by
  induction rest generalizing seen start with
  | nil => cases hmem
  | cons member rest ih =>
    rw [members]
    refine (gives_text doc member.1).bind fun first hfirst => ?_
    rcases List.mem_cons.mp hmem with rfl | hmem
    · have hsame : some first = some name :=
        (Document.text?_eq_some_iff.mpr hfirst).symm.trans (Document.text?_eq_some_iff.mpr hname)
      rw [Option.some.inj hsame, hfield]
      dsimp only
      split
      · exact gives_throw_bind .duplicate _
      · exact hread.bind fun change hchange =>
          gives_members_after List.mem_cons_self hkeep (hchange start) rest
    · split
      · exact ih hmem seen start
      · split
        · exact gives_throw_bind .duplicate _
        · exact (gives_true _).bind fun change _ => ih hmem _ _

/-- **A shape takes from a member what its field takes**, if the other fields do not touch it. -/
theorem gives_shape_of_member {name : String} {value : Node}
    (hmember : doc.HasMember node name value) (hfield : fields.lookup name = some field)
    (hread : Gives (read field value) fun change => ∀ a, P (change a))
    (hkeep : ∀ other ≠ field, ∀ value,
      Gives (read other value) fun change => ∀ a, P a → P (change a)) (start : α) :
    Gives (shape doc fields start read node) P := by
  obtain ⟨tag, rest, key, hnode, hmem, hname⟩ := hmember
  refine (gives_follow doc node).bind fun target htarget => ?_
  cases hnode.symm.trans htarget
  exact gives_members_of_mem hname hfield hread hkeep hmem [] start

end Shapes

/-! ### Any values -/

theorem gives_lift (x : Except Fault α) : Gives (liftM x : Decode α) fun a => x = .ok a := by
  intro jumps
  cases x with
  | error fault => exact ensures_error fault
  | ok a => exact ensures_ok rfl

theorem gives_scalar (doc : Document) (node : Node) :
    Gives (scalar doc node) fun v => ∃ s, doc.target? node = some (.scalar s) ∧ s.value = .ok v := by
  refine (gives_follow doc node).bind fun target htarget => ?_
  cases target with
  | scalar s => exact (gives_lift s.value).mono fun v hv => ⟨s, htarget, hv⟩
  | reference | sequence | mapping => exact gives_throw _

theorem gives_mapM {f : α → Decode β} {R : α → β → Prop} {as : List α}
    (h : ∀ a ∈ as, Gives (f a) (R a)) : Gives (as.mapM f) (List.Forall₂ R as) := by
  induction as with
  | nil => exact gives_pure .nil
  | cons a as ih =>
    obtain ⟨ha, has⟩ := List.forall_mem_cons.mp h
    rw [List.mapM_cons]
    exact ha.bind fun b hb => (ih has).bind fun bs hbs => gives_pure (.cons hb hbs)

/-- What is given for a node is what the scalar stands for, if the node is one. -/
def IsValue (doc : Document) (node : Node) (v : Json) : Prop :=
  ∀ s, doc.target? node = some (.scalar s) →
    ∃ value : ScalarValue, s.value = .ok value ∧ v = value.toJson

theorem gives_json (doc : Document) (room : Nat) (node : Node) :
    Gives (json doc room node) (IsValue doc node) := by
  have hfollow {rest : Node → Decode Json}
      (hscalar : ∀ s, rest (.scalar s) = do return (← s.value).toJson) :
      Gives (follow doc node >>= rest) (IsValue doc node) := by
    refine (gives_follow doc node).bind fun target htarget => ?_
    cases target with
    | scalar s =>
      rw [hscalar]
      refine (gives_lift s.value).bind fun value hvalue => gives_pure fun other hother => ?_
      cases htarget.symm.trans hother
      exact ⟨value, hvalue, rfl⟩
    | reference | sequence | mapping =>
      -- the node is no scalar
      exact (gives_true _).mono fun _ _ s hs => nomatch htarget.symm.trans hs
  cases room with
  | zero =>
    rw [json]
    exact hfollow fun _ => rfl
  | succ room =>
    rw [json]
    exact hfollow fun _ => rfl

/-- A member is given as a write of its value under its name. -/
def IsWrite (doc : Document) (member : Node × Node) (write : String × Json) : Prop :=
  doc.IsText member.1 write.1 ∧ IsValue doc member.2 write.2

theorem gives_json_mapping (doc : Document) (room : Nat) {node : Node} {tag : Option String}
    {members : List (Node × Node)} (hnode : doc.target? node = some (.mapping tag members)) :
    Gives (json doc (room + 1) node) fun v =>
      ∃ writes, List.Forall₂ (IsWrite doc) members writes ∧ v = Json.ofWrites writes := by
  rw [json]
  refine (gives_follow doc node).bind fun target htarget => ?_
  cases hnode.symm.trans htarget
  refine (gives_true _).bind fun _ _ => ?_
  refine (gives_mapM fun member _ => ?_).bind fun writes hwrites =>
    gives_pure ⟨writes, hwrites, rfl⟩
  exact (gives_text doc member.1).bind fun name hname =>
    (gives_json doc room member.2).bind fun v hv => gives_pure ⟨hname, hv⟩

end Decode

end Yaml

/-! ### Records and conditions -/

/-- The scalar under a name of the document of a text. -/
def Yaml.scalarOf? (text name : String) : Option Yaml.Scalar :=
  (Yaml.Document.read text).toOption.bind fun doc => doc.scalar? name

variable {text name : String} {s : Yaml.Scalar}

theorem Yaml.exists_document (h : scalarOf? text name = some s) :
    ∃ doc, Document.read text = .ok doc ∧ doc.scalar? name = some s := by
  obtain ⟨doc, hdoc, hs⟩ := Option.bind_eq_some_iff.mp h
  exact ⟨doc, toOption_eq_some_iff.mp hdoc, hs⟩

open Yaml (Decode Document Node ScalarValue)

/-- The literal of a condition is what the scalar under its name stands for. -/
theorem Condition.value_of_scalarOf? {c : Condition} (hc : Condition.parse .yaml text = .ok c)
    (hs : Yaml.scalarOf? text "value" = some s) :
    ∃ value : ScalarValue, s.value = .ok value ∧ c.value = some value.toLiteral := by
  obtain ⟨doc, hdoc, hscalar⟩ := Yaml.exists_document hs
  obtain ⟨node, hmember, htarget⟩ := Document.exists_member_of_scalar? hscalar
  have hgives : Decode.Gives (Condition.ofNode doc Yaml.nestingLimit doc.root) fun c =>
      ∃ value : ScalarValue, s.value = .ok value ∧ c.value = some value.toLiteral := by
    rw [Yaml.nestingLimit, Condition.ofNode]
    refine Decode.gives_shape_of_member (Document.hasMember_of_member? hmember)
      (show partNames.lookup "value" = some .value from rfl) ?_ (fun part hpart node => ?_) _
    · exact (Decode.gives_scalar doc node).bind fun value ⟨other, hother, hvalue⟩ => by
        cases htarget.symm.trans hother
        exact Decode.gives_pure fun _ => ⟨value, hvalue, rfl⟩
    · cases part with
      | value => exact absurd rfl hpart
      | op | property | conditions | condition =>
        exact (Decode.gives_true _).bind fun _ _ => Decode.gives_pure fun _ h => h
  obtain ⟨doc', hdoc', hdecode⟩ := bind_eq_ok_iff.mp (mapError_eq_ok_iff.mp hc)
  cases hdoc.symm.trans hdoc'
  exact doc.ensures_decode hgives c hdecode

/-- **The field of a record is what the last scalar under its name stands for.** -/
theorem Record.get?_of_scalarOf? {record : Record} (hr : Record.parse .yaml text = .ok record)
    (hs : Yaml.scalarOf? text name = some s) :
    ∃ value : ScalarValue, s.value = .ok value ∧ record.get? name = some value.toJson := by
  obtain ⟨doc, hdoc, hscalar⟩ := Yaml.exists_document hs
  obtain ⟨node, hmember, htarget⟩ := Document.exists_member_of_scalar? hscalar
  obtain ⟨tag, members, key, hroot, hfind⟩ := Document.exists_members_of_member? hmember
  obtain ⟨v, hv, hrecord⟩ := bind_eq_ok_iff.mp hr
  obtain ⟨doc', hdoc', hdecode⟩ := bind_eq_ok_iff.mp (mapError_eq_ok_iff.mp hv)
  cases hdoc.symm.trans hdoc'
  obtain ⟨writes, hwrites, rfl⟩ :=
    doc.ensures_decode (Decode.gives_json_mapping doc 127 hroot) v hdecode
  cases hrecord
  -- the last member of the name is given as the last write of it
  have hsame : ∀ member write, Decode.IsWrite doc member write →
      decide (doc.text? member.1 = some name) = decide (write.1 = name) := fun member write h => by
    rw [Document.text?_eq_some_iff.mpr h.1, decide_eq_decide, Option.some_inj]
  obtain ⟨write, hlast, -, hwrite⟩ :=
    find?_related hsame (List.forall₂_reverse_iff.mpr hwrites) hfind
  obtain ⟨value, hvalue, hjson⟩ := hwrite s htarget
  refine ⟨value, hvalue, ?_⟩
  rw [Record.get?_writes_twice, hlast, Option.map_some, hjson]

end Conditions
