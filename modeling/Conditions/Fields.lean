/-!
# Fields

Named values in the order of their names, each name once. `put` writes a field over the one of the
same name; lists of fields in which every name is above the ones before it are `Sorted`, and two
sorted lists with the same fields are one list.
-/

namespace Conditions

/-- Named values. -/
abbrev Fields (α : Type) := List (String × α)

namespace Fields

variable {α : Type}

/-- Writes a field, over the one of the same name or in its place in the order. -/
def put (name : String) (value : α) : Fields α → Fields α
  | [] => [(name, value)]
  | field :: rest =>
    if name < field.1 then (name, value) :: field :: rest
    else if name = field.1 then (name, value) :: rest
    else field :: put name value rest

/-- Writes a field as `put` does, and gives the value that it is written over, if there is one. -/
def exchange (name : String) (value : α) : Fields α → Option α × Fields α
  | [] => (none, [(name, value)])
  | field :: rest =>
    if name < field.1 then (none, (name, value) :: field :: rest)
    else if name = field.1 then (some field.2, (name, value) :: rest)
    else
      let (old, rest) := exchange name value rest
      (old, field :: rest)

/-- The value under a name. -/
def find? (name : String) : Fields α → Option α
  | [] => none
  | field :: rest => if name = field.1 then some field.2 else find? name rest

/-- The fields written by a list of writes, the last write under a name standing. -/
def ofWrites (writes : List (String × α)) : Fields α :=
  writes.foldl (fun fields write => fields.put write.1 write.2) []

/-- Every name is above the names before it. -/
def Sorted (fields : Fields α) : Prop := fields.Pairwise (·.1 < ·.1)

@[simp] theorem find?_nil (name : String) : find? name ([] : Fields α) = none := rfl

theorem find?_put_self (name : String) (value : α) (fields : Fields α) :
    find? name (fields.put name value) = some value := by
  induction fields with
  | nil => simp [put, find?]
  | cons field rest ih => grind [put, find?]

theorem find?_put_of_ne {name other : String} (h : other ≠ name) (value : α)
    (fields : Fields α) : find? other (fields.put name value) = find? other fields := by
  induction fields with
  | nil => simp [put, find?, h]
  | cons field rest ih => grind [put, find?]

theorem find?_put (name other : String) (value : α) (fields : Fields α) :
    find? other (fields.put name value) =
      if other = name then some value else find? other fields := by
  split
  · next h => rw [h, find?_put_self]
  · next h => exact find?_put_of_ne h value fields

theorem mem_put {name : String} {value : α} {fields : Fields α} {field : String × α}
    (h : field ∈ fields.put name value) : field = (name, value) ∨ field ∈ fields := by
  induction fields with
  | nil => simpa [put] using h
  | cons head rest ih => grind [put]

theorem sorted_put {fields : Fields α} (h : Sorted fields) (name : String) (value : α) :
    Sorted (fields.put name value) := by
  induction fields with
  | nil => simp [Sorted, put]
  | cons head rest ih =>
    obtain ⟨hhead, hrest⟩ := List.pairwise_cons.1 h
    rw [put]
    split
    · next hlt =>
      exact List.pairwise_cons.2 ⟨fun field hmem => by
        rcases List.mem_cons.1 hmem with rfl | hmem
        · exact hlt
        · exact String.lt_trans hlt (hhead _ hmem), h⟩
    · next hlt =>
      split
      · next heq => exact List.pairwise_cons.2 ⟨fun field hmem => heq ▸ hhead field hmem, hrest⟩
      · next hne =>
        refine List.pairwise_cons.2 ⟨fun field hmem => ?_, ih hrest⟩
        rcases mem_put hmem with rfl | hmem
        · rcases String.le_total name head.1 with hle | hle
          · exact absurd (String.le_antisymm hle (String.not_lt.1 hlt)) hne
          · exact Decidable.byContradiction fun hge =>
              hne (String.le_antisymm (String.not_lt.1 hge) hle)
        · exact hhead field hmem

theorem exchange_snd (name : String) (value : α) (fields : Fields α) :
    (fields.exchange name value).2 = fields.put name value := by
  induction fields with
  | nil => rfl
  | cons field rest ih => grind [exchange, put]

theorem find?_eq_none_of_lt {name : String} {fields : Fields α}
    (h : ∀ field ∈ fields, name < field.1) : find? name fields = none := by
  induction fields with
  | nil => rfl
  | cons field rest ih =>
    obtain ⟨hfield, hrest⟩ := List.forall_mem_cons.1 h
    have hne : name ≠ field.1 := fun heq => String.lt_irrefl name (heq.symm ▸ hfield)
    rw [find?, if_neg hne, ih hrest]

/-- What is written over is what stood under the name. -/
theorem exchange_fst {fields : Fields α} (h : Sorted fields) (name : String) (value : α) :
    (fields.exchange name value).1 = find? name fields := by
  induction fields with
  | nil => rfl
  | cons field rest ih =>
    obtain ⟨hhead, hrest⟩ := List.pairwise_cons.1 h
    rw [exchange]
    split
    · next hlt =>
      -- the name is below all names, so it stands nowhere
      have hbelow : ∀ other ∈ field :: rest, name < other.1 :=
        List.forall_mem_cons.2 ⟨hlt, fun other hmem => String.lt_trans hlt (hhead other hmem)⟩
      exact (find?_eq_none_of_lt hbelow).symm
    · split
      · next heq => rw [find?, if_pos heq]
      · next hne => rw [find?, if_neg hne, ← ih hrest]

theorem ofWrites_concat (writes : List (String × α)) (name : String) (value : α) :
    ofWrites (writes ++ [(name, value)]) = (ofWrites writes).put name value :=
  List.foldl_append

theorem sorted_ofWrites (writes : List (String × α)) : Sorted (ofWrites writes) := by
  suffices h : ∀ fields : Fields α, Sorted fields →
      Sorted (writes.foldl (fun fields write => fields.put write.1 write.2) fields) from
    h [] List.Pairwise.nil
  induction writes with
  | nil => exact fun _ h => h
  | cons write rest ih => exact fun fields h => ih _ (sorted_put h _ _)

/-- Of the writes of a name the last stands. -/
theorem find?_ofWrites (writes : List (String × α)) (name : String) :
    find? name (ofWrites writes) = (writes.reverse.find? (·.1 = name)).map (·.2) := by
  suffices h : ∀ fields : Fields α,
      find? name (writes.foldl (fun fields write => fields.put write.1 write.2) fields) =
        ((writes.reverse.find? (·.1 = name)).map (·.2)).or (find? name fields) by
    rw [ofWrites, h, find?_nil, Option.or_none]
  induction writes with
  | nil => exact fun fields => rfl
  | cons write rest ih =>
    intro fields
    rw [List.foldl_cons, ih, find?_put, List.reverse_cons, List.find?_append]
    cases rest.reverse.find? (·.1 = name) with
    | some later => rfl
    | none =>
      by_cases h : write.1 = name
      · simp [h]
      · simp [h, Ne.symm h]

/-- No field is there that was not written. -/
theorem mem_of_mem_ofWrites {writes : List (String × α)} {field : String × α}
    (h : field ∈ ofWrites writes) : field ∈ writes := by
  suffices hall : ∀ fields : Fields α,
      field ∈ writes.foldl (fun fields write => fields.put write.1 write.2) fields →
        field ∈ writes ∨ field ∈ fields from
    (hall [] h).resolve_right List.not_mem_nil
  clear h
  induction writes with
  | nil => exact fun _ hmem => .inr hmem
  | cons write rest ih =>
    intro fields hmem
    rcases ih (fields.put write.1 write.2) hmem with hrest | hput
    · exact .inl (List.mem_cons_of_mem _ hrest)
    · rcases mem_put hput with rfl | hfields
      · exact .inl List.mem_cons_self
      · exact .inr hfields

/-! ### Sorted fields -/

theorem mem_of_find? {name : String} {value : α} {fields : Fields α}
    (h : find? name fields = some value) : (name, value) ∈ fields := by
  induction fields with
  | nil => cases h
  | cons field rest ih =>
    rw [find?] at h
    split at h
    · next heq =>
      cases h
      exact heq ▸ List.mem_cons_self
    · exact List.mem_cons_of_mem field (ih h)

theorem find?_eq_some_iff {fields : Fields α} (h : Sorted fields) {name : String} {value : α} :
    find? name fields = some value ↔ (name, value) ∈ fields := by
  refine ⟨mem_of_find?, fun hmem => ?_⟩
  induction fields with
  | nil => cases hmem
  | cons field rest ih =>
    obtain ⟨hhead, hrest⟩ := List.pairwise_cons.1 h
    rw [find?]
    rcases List.mem_cons.1 hmem with rfl | hmem
    · simp
    · have hlt : field.1 < name := hhead (name, value) hmem
      have hne : name ≠ field.1 := fun heq => String.lt_irrefl name (heq.symm ▸ hlt)
      rw [if_neg hne, ih hrest hmem]

theorem nodup_names {fields : Fields α} (h : Sorted fields) : (fields.map (·.1)).Nodup := by
  refine List.pairwise_map.2 (h.imp ?_)
  intro a b hlt heq
  exact String.lt_irrefl a.1 (heq.symm ▸ hlt)

/-- Sorted lists with the same fields are one list. -/
theorem eq_of_mem_iff {fields fields' : Fields α} (h : Sorted fields) (h' : Sorted fields')
    (hmem : ∀ field, field ∈ fields ↔ field ∈ fields') : fields = fields' := by
  induction fields generalizing fields' with
  | nil =>
    cases fields' with
    | nil => rfl
    | cons head' rest' => cases (hmem head').2 List.mem_cons_self
  | cons head rest ih =>
    cases fields' with
    | nil => cases (hmem head).1 List.mem_cons_self
    | cons head' rest' =>
      obtain ⟨hhead, hrest⟩ := List.pairwise_cons.1 h
      obtain ⟨hhead', hrest'⟩ := List.pairwise_cons.1 h'
      have heq : head = head' := by
        rcases List.mem_cons.1 ((hmem head).1 List.mem_cons_self) with hf | hf
        · exact hf
        · rcases List.mem_cons.1 ((hmem head').2 List.mem_cons_self) with hf' | hf'
          · exact hf'.symm
          · exact absurd (String.lt_trans (hhead _ hf') (hhead' _ hf)) (String.lt_irrefl _)
      subst heq
      -- the head is in neither rest, so the rests have the same fields too
      refine congrArg _ (ih hrest hrest' fun field => ⟨fun hf => ?_, fun hf => ?_⟩)
      · rcases List.mem_cons.1 ((hmem field).1 (List.mem_cons_of_mem _ hf)) with rfl | hf'
        · exact absurd (hhead _ hf) (String.lt_irrefl _)
        · exact hf'
      · rcases List.mem_cons.1 ((hmem field).2 (List.mem_cons_of_mem _ hf)) with rfl | hf'
        · exact absurd (hhead' _ hf) (String.lt_irrefl _)
        · exact hf'

/-- Sorted fields that answer every name alike are the same. -/
theorem eq_of_find?_eq {fields fields' : Fields α} (h : Sorted fields) (h' : Sorted fields')
    (heq : ∀ name, find? name fields = find? name fields') : fields = fields' :=
  eq_of_mem_iff h h' fun field => by
    rw [← find?_eq_some_iff h, ← find?_eq_some_iff h', heq]

end Fields

end Conditions
