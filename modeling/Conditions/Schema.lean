import Conditions.Json.Printer

/-!
# The schema of a condition

A description of condition documents in the language of JSON schemas.
-/

namespace Conditions.Schema

/-- A member that refers to a definition. -/
def reference (name : String) : Json := .object [("$ref", .text ("#/definitions/" ++ name))]

/-- The schema of a kind of value. -/
def kind (name : String) : Json := .object [("type", .text name)]

/-- A schema with a description before its other members. -/
def described (description : String) (members : List (String × Json)) : Json :=
  .object (("description", .text description) :: members)

/-- The members for a definition or null. -/
def optionalDefinition (name : String) : List (String × Json) :=
  [("anyOf", .array [reference name, kind "null"])]

/-- The member for a kind of value or null. -/
def optionalKind (name : String) : String × Json :=
  ("type", .array [.text name, .text "null"])

/-- The description of a condition. -/
def conditionDescription : String :=
  "One node of a condition tree: a comparison leaf or a logical combinator.\n\n" ++
  "Which fields matter depends on the kind `op` resolves to: - comparisons read `property` and " ++
  "`value` - `and`/`or` read `conditions` - `not` reads `condition`\n\n" ++
  "Fields that do not apply are ignored. Trees are owned (`Box`/`Vec`), so a node can never be " ++
  "its own ancestor."

/-- The members that describe a condition. -/
def conditionMembers : List (String × Json) :=
  [("type", .text "object"),
    ("properties", .object [
      ("condition", described "Operand of `not`" (optionalDefinition "ConditionNode")),
      ("conditions", described "Children of `and`/`or`"
        [optionalKind "array", ("items", reference "ConditionNode")]),
      ("op", described "Operator token, normalized by the resolver at evaluation time"
        [("default", .text ""), ("type", .text "string")]),
      ("property", described "Record field a comparison reads" [optionalKind "string"]),
      ("value", described
        ("Comparison operand; `None` when the key is absent, `Some(Literal::Null)` for an " ++
          "explicit null")
        (optionalDefinition "Literal"))])]

/-- The schema of a literal. -/
def literal : Json :=
  described "Literal operand of a comparison"
    [("anyOf", .array [kind "null", kind "boolean",
      .object [("type", .text "number"), ("format", .text "double")], kind "string"])]

/-- The schema of a condition document. -/
def condition : Json :=
  .object ([("$schema", .text "http://json-schema.org/draft-07/schema#"),
      ("title", .text "ConditionNode"), ("description", .text conditionDescription)]
    ++ conditionMembers
    ++ [("definitions", .object [
      ("ConditionNode", described conditionDescription conditionMembers),
      ("Literal", literal)])])

end Conditions.Schema
