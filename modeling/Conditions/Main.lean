import Conditions.CommandLine

/-!
# The program

Reads the arguments, the variables and the files that the arguments name, and ends as
`runArguments` says.
-/

namespace Conditions

/-- The text of a file. -/
def readText (path : String) : IO (Except FileFault String) := do
  try
    let bytes ← IO.FS.readBinFile path
    match String.fromUTF8? bytes with
    | some text => return .ok text
    | none => return .error .notText
  catch _ => return .error .notFound

/-- The lines of a file up to the first that is no text. -/
def textLines (bytes : ByteArray) : String :=
  let lines := (bytes.toList.splitOn 10).map fun line => String.fromUTF8? ⟨line.toArray⟩
  "\n".intercalate (lines.takeWhile Option.isSome).reduceOption

/-- The file of variables in the current directory or the nearest one above it. -/
partial def findVariables (directory : String) : IO (Option String) := do
  try
    return some (textLines (← IO.FS.readBinFile (directory ++ "/.env")))
  catch _ =>
    if directory.toList.length ≤ 1 then return none
    else
      let parent := (directory.toList.reverse.dropWhile (· ≠ '/')).drop 1
      findVariables (String.ofList parent.reverse)

/-- The variables that settings depend on, those that the file mentions, and those that it sets. -/
def readEnvironment : IO Environment := do
  let file ← findVariables (toString (← IO.currentDir))
  let names := [orderingVariable, depthVariable, strictVariable, caseVariable]
  let mentioned := (file.map Environment.words).getD []
  let set ← (names ++ mentioned.filter (· ≠ "")).filterMapM fun name => do
    return (← IO.getEnv name).map fun value => (name, value)
  return Environment.withFile set file

end Conditions

open Conditions in
/-- The program. -/
def main (arguments : List String) : IO UInt32 := do
  let env ← readEnvironment
  let paths := ((Command.ofArguments? arguments).map Command.paths).getD []
  let texts ← paths.mapM fun path => do return (path, ← readText path)
  let files : Files := fun path => (texts.lookup path).getD (.error .notFound)
  let ending := runArguments files env arguments
  IO.print ending.output
  if let some line := ending.error then IO.eprintln line
  if ending.code = 2 then IO.eprintln Command.usage
  return ending.code.toUInt32
