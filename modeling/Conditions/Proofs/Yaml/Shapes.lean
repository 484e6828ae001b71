import Conditions.Proofs.Results
import Conditions.Yaml.Decode

/-!
# What a shape takes from a document

A shape is made from its start by the changes that the members of a mapping ask for, each under the
name of a field. What the start has, and what is kept by the change of every member there is, the
shape has (`gives_shape`). So a field that a document has no member for stays as it is at the
start.
-/

namespace Conditions.Yaml

/-- The node that a node stands for; an alias stands for the node of its anchor. -/
def Document.target? (doc : Document) : Node → Option Node
  | .reference anchor => doc.node? anchor
  | node => some node

/-- A node is the text of a scalar. -/
def Document.IsText (doc : Document) (node : Node) (text : String) : Prop :=
  ∃ s : Scalar, doc.target? node = some (.scalar s) ∧ s.text = text

/-- A node is a mapping with a value under a name. -/
def Document.HasMember (doc : Document) (node : Node) (name : String) (value : Node) : Prop :=
  ∃ tag members key, doc.target? node = some (.mapping tag members) ∧ (key, value) ∈ members ∧
    doc.IsText key name

/-- From a node, some names lead from mapping to mapping. -/
def Document.HasPath (doc : Document) : List String → Node → Prop
  | [], _ => True
  | name :: names, node => ∃ value, doc.HasMember node name value ∧ doc.HasPath names value

namespace Decode

variable {α β φ : Type} {P : α → Prop} {Q : β → Prop} {doc : Document} {node : Node}

/-- Whatever a reader gives has a property. -/
def Gives (m : Decode α) (P : α → Prop) : Prop := ∀ jumps, Ensures (m.run jumps) fun r => P r.1

theorem gives_true (m : Decode α) : Gives m fun _ => True := fun _ => ensures_true _

theorem gives_pure {a : α} (h : P a) : Gives (pure a) P := fun _ => ensures_ok h

theorem gives_throw (fault : Fault) : Gives (throw fault) P := fun _ => ensures_error fault

theorem Gives.bind {m : Decode α} {f : α → Decode β} (hm : Gives m P)
    (hf : ∀ a, P a → Gives (f a) Q) : Gives (m >>= f) Q := fun jumps =>
  (hm jumps).bind fun r hr => hf r.1 hr r.2

theorem Gives.mono {Q : α → Prop} {m : Decode α} (hm : Gives m P) (h : ∀ a, P a → Q a) :
    Gives m Q := fun jumps r hr => h r.1 (hm jumps r hr)

theorem gives_follow (doc : Document) (node : Node) :
    Gives (follow doc node) fun target => doc.target? node = some target := by
  cases node with
  | reference anchor =>
    refine (gives_true (get : Decode Nat)).bind fun jumps _ => ?_
    split
    · next jumps target hnode => exact (gives_true (set jumps)).bind fun _ _ => gives_pure hnode
    · exact gives_throw _
    · exact gives_throw _
  | scalar | sequence | mapping => exact gives_pure rfl

theorem gives_text (doc : Document) (node : Node) :
    Gives (text doc node) fun text => doc.IsText node text := by
  refine (gives_follow doc node).bind fun target htarget => ?_
  cases target with
  | scalar s => exact gives_pure ⟨s, htarget, rfl⟩
  | reference | sequence | mapping => exact gives_throw _

theorem gives_throw_bind (fault : Fault) (f : α → Decode β) : Gives (throw fault >>= f) Q :=
  (gives_throw (P := fun _ => False) fault).bind fun _ h => h.elim

variable [DecidableEq φ] {fields : List (String × φ)} {read : φ → Node → Decode (α → α)}

theorem gives_members {rest : List (Node × Node)} (seen : List φ) {start : α} (hstart : P start)
    (h : ∀ name field key value, (key, value) ∈ rest → doc.IsText key name →
      fields.lookup name = some field →
      Gives (read field value) fun change => ∀ a, P a → P (change a)) :
    Gives (members doc fields read seen start rest) P := by
  induction rest generalizing seen start with
  | nil => exact gives_pure hstart
  | cons member rest ih =>
    obtain ⟨key, value⟩ := member
    have hrest name field key value (hmem : (key, value) ∈ rest) :=
      h name field key value (List.mem_cons_of_mem _ hmem)
    rw [members]
    refine (gives_text doc key).bind fun name hname => ?_
    split
    · exact ih seen hstart hrest
    · next field hfield =>
      split
      · exact gives_throw_bind .duplicate _
      · have hchange := h name field key value List.mem_cons_self hname hfield
        exact hchange.bind fun change hchange => ih (field :: seen) (hchange start hstart) hrest

/-- **What the start of a shape has and all members keep, the shape has.** -/
theorem gives_shape {start : α} (hstart : P start)
    (h : ∀ name field value, doc.HasMember node name value → fields.lookup name = some field →
      Gives (read field value) fun change => ∀ a, P a → P (change a)) :
    Gives (shape doc fields start read node) P := by
  refine (gives_follow doc node).bind fun target htarget => ?_
  cases target with
  | mapping tag members =>
    exact gives_members [] hstart fun name field key value hmem hname hfield =>
      h name field value ⟨tag, members, key, htarget, hmem, hname⟩ hfield
  | scalar s =>
    dsimp only
    split
    · exact gives_pure hstart
    · exact gives_throw _
  | reference | sequence => exact gives_throw _

end Decode

theorem Document.ensures_decode {α : Type} {P : α → Prop} {doc : Document}
    {read : Document → Node → Decode α} (h : Decode.Gives (read doc doc.root) P) :
    Ensures (doc.decode read) P :=
  (h _).map

end Conditions.Yaml
