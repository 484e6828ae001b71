import Conditions.Environment

/-!
# What a file of variables supplies

A line of a file of variables is blank, or gives a variable, or is broken and ends the file. What a
value is may depend on the variables before it, those of the process among them. The file supplies
what its lines give (`supplied`), and a variable has the value that the process has for it, and else
the first that the file supplies (`lookup_withFile`).
-/

namespace Conditions.Environment

variable {env : Environment}

/-- What a line of a file of variables is. -/
inductive Line where
  /-- Nothing, or a comment. -/
  | blank
  /-- A variable with its value. -/
  | binding (name value : String)
  /-- Neither. -/
  | broken

/-- What a line is, given the variables before it. -/
def readLine (env : Environment) (line : List Char) : Line :=
  let text := (trimEndOf isBlank line).dropWhile isBlank
  if text.head? = none ∨ text.head? = some '#' then .blank
  else
    match splitBinding? text with
    | none => .broken
    | some (name, value) =>
      match env.value? value with
      | none => .broken
      | some value => .binding name value

/-- The variables that lines give, up to the first that is broken. -/
def suppliedLines : Environment → List (List Char) → Environment
  | _, [] => []
  | env, line :: rest =>
    match env.readLine line with
    | .blank => suppliedLines env rest
    | .binding name value => (name, value) :: suppliedLines (env.setDefault name value) rest
    | .broken => []

/-- The variables that a file gives, if there is one. -/
def supplied (env : Environment) (file : Option String) : Environment :=
  (file.map fun text => env.suppliedLines (lines text.toList)).getD []

theorem addLines_cons (env : Environment) (line : List Char) (rest : List (List Char)) :
    env.addLines (line :: rest) =
      match env.readLine line with
      | .blank => env.addLines rest
      | .binding name value => (env.setDefault name value).addLines rest
      | .broken => env := by
  rw [addLines, readLine]
  split
  · rfl
  · cases splitBinding? ((trimEndOf isBlank line).dropWhile isBlank) with
    | none => rfl
    | some binding =>
      obtain ⟨name, text⟩ := binding
      cases hvalue : env.value? text <;> simp only [hvalue]

/-- A variable that is set keeps its value. -/
theorem lookup_setDefault (env : Environment) (name value name' : String) :
    (env.setDefault name value).lookup name' =
      (env.lookup name').or (List.lookup name' [(name, value)]) := by
  unfold setDefault
  split
  · next hset =>
    by_cases hname : name' = name
    · subst hname
      obtain ⟨old, hold⟩ := Option.isSome_iff_exists.mp hset
      rw [hold, Option.some_or]
    · rw [List.lookup_cons, beq_eq_false_iff_ne.mpr hname, List.lookup_nil, Option.or_none]
  · exact List.lookup_append

/-- What lines supply comes after what is set. -/
theorem lookup_addLines (env : Environment) (lines : List (List Char)) (name : String) :
    (env.addLines lines).lookup name =
      (env.lookup name).or ((env.suppliedLines lines).lookup name) := by
  induction lines generalizing env with
  | nil => exact (Option.or_none ..).symm
  | cons line rest ih =>
    rw [addLines_cons, suppliedLines]
    cases env.readLine line with
    | blank => exact ih env
    | broken => exact (Option.or_none ..).symm
    | binding name' value =>
      rw [ih, lookup_setDefault, Option.or_assoc, ← List.lookup_append]
      rfl

/-- **The process comes before the file**. -/
theorem lookup_withFile (env : Environment) (file : Option String) (name : String) :
    (env.withFile file).lookup name = (env.lookup name).or ((env.supplied file).lookup name) := by
  cases file with
  | none => exact (Option.or_none ..).symm
  | some text => exact lookup_addLines env (lines text.toList) name

/-- A line that is neither blank nor a binding hides the lines after it, and what it would set. -/
example : supplied [("A", "0")] (some "A=1\nB=$A\nC\nD=2") = [("A", "1"), ("B", "0")] := by
  decide +kernel

end Conditions.Environment
