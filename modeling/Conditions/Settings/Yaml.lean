import Conditions.Settings.Json
import Conditions.Yaml.Decode

/-!
# Settings in YAML

Settings are read from a mapping; what does not come keeps its default, and so does everything in a
blank text. A greatest depth of zero is refused.
-/

namespace Conditions

open Yaml (Node Decode Document)

/-- The settings of a resolver that a node holds. There is always room for their two levels. -/
def ResolverSettings.ofNode (doc : Document) (node : Node) : Decode ResolverSettings :=
  Decode.shape doc fieldNames {} (fun field node => do
    match field with
    | .strict =>
      let strict ← Decode.boolean doc node
      return fun s => { s with strict }
    | .caseInsensitive =>
      let caseInsensitive ← Decode.boolean doc node
      return fun s => { s with caseInsensitive }
    | .aliases =>
      let aliases ← Decode.textMembers doc node
      return fun s => { s with aliases := Fields.ofWrites aliases }) node

namespace Settings

/-- The settings that a node holds. -/
def ofNode (doc : Document) (node : Node) : Decode Settings :=
  Decode.shape doc fieldNames {} (fun field node => do
    match field with
    | .ordering =>
      let ordering ← Decode.choice doc OrderingMode.ofName? node
      return fun s => { s with ordering }
    | .maxDepth =>
      let maxDepth ← Decode.optional doc (Decode.natural doc) node
      return fun s => { s with maxDepth }
    | .resolver =>
      let resolver ← ResolverSettings.ofNode doc node
      return fun s => { s with resolver }) node

/-- Why a text holds no settings. -/
inductive ReadError where
  /-- It is no document, or one of another shape. -/
  | document (fault : Yaml.Fault)
  /-- It holds settings that cannot be. -/
  | settings (error : SettingsError)

/-- Reads settings from a text. -/
def parseYaml (text : String) : Except ReadError Settings :=
  if trim text = "" then .ok {}
  else
    match (Document.read text).bind (·.decode ofNode) with
    | .error fault => .error (.document fault)
    | .ok settings =>
      if settings.maxDepth = some 0 then .error (.settings .zeroDepth) else .ok settings

end Settings

end Conditions
