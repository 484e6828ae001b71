/-!
# Formats by file name

A document in a file is YAML if the name of the file ends in one of the two usual extensions, and
JSON otherwise. Parts of a path that name no file, such as empty ones and single points, do not
count, and a name with a point only at its start has no extension.
-/

namespace Conditions

/-- The format of a document. -/
inductive Format where
  /-- The one with braces and quotes. -/
  | json
  /-- The one with indentation. -/
  | yaml
  deriving DecidableEq

/-- The parts of a path between slashes. -/
def pathParts : List Char → List (List Char)
  | [] => [[]]
  | c :: rest =>
    match pathParts rest with
    | [] => [[c]]
    | part :: parts => if c = '/' then [] :: part :: parts else (c :: part) :: parts

/-- The name of the file that a path leads to. -/
def fileName? (path : List Char) : Option (List Char) :=
  ((pathParts path).filter fun part => part ≠ [] ∧ part ≠ ['.']).getLast?.filter (· ≠ ['.', '.'])

/-- What follows the last point of a name, unless the point comes first. -/
def extension? (name : List Char) : Option (List Char) :=
  let after := (name.reverse.takeWhile (· ≠ '.')).reverse
  if after.length + 1 < name.length then some after else none

/-- The format of the document in a file. -/
def Format.ofPath (path : String) : Format :=
  match ((fileName? path.toList).bind extension?).map (·.map Char.toLower) with
  | some ['y', 'a', 'm', 'l'] | some ['y', 'm', 'l'] => .yaml
  | _ => .json

end Conditions
