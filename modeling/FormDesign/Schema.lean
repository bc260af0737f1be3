import FormDesign.Control
import FormDesign.Json.Print
import FormDesign.Options

/-!
# Schemas

JSON schemas of forms and of options, for editors and hosts. Members are sorted by key.
-/

namespace FormDesign.Schema

open Json (Value)

/-! ## Building blocks -/

/-- A text as a value. -/
def str (s : String) : Value := .string s

/-- A list of texts as a value. -/
def strs (l : List String) : Value := .array (l.map .string)

/-- A schema that refers to a definition. -/
def reference (name : String) : List (String × Value) :=
  [("$ref", str s!"#/$defs/{name}")]

/-- A schema with a type. -/
def typed (type : String) : List (String × Value) :=
  [("type", str type)]

/-- A list of what `items` describes. -/
def listOf (items : List (String × Value)) : List (String × Value) :=
  ("items", .object items) :: typed "array"

/-- What a definition describes, or null. -/
def referenceOrNull (name : String) : List (String × Value) :=
  [("anyOf", .array [.object (reference name), .object (typed "null")])]

/-- A text or null. -/
def textOrNull : List (String × Value) :=
  [("type", strs ["string", "null"])]

/-- A schema with a description. -/
def described (description : String) (schema : List (String × Value)) : List (String × Value) :=
  ("description", str description) :: schema

/-- A schema with a default. -/
def withDefault (default : Value) (schema : List (String × Value)) : List (String × Value) :=
  ("default", default) :: schema

/-- An object with these properties. -/
def objectOf (properties : List (String × List (String × Value))) : List (String × Value) :=
  ("properties", .object (properties.map fun (name, schema) => (name, .object schema))) ::
    typed "object"

/-- An object in which some properties must be given. -/
def requiring (names : List String) (schema : List (String × Value)) : List (String × Value) :=
  ("required", strs names) :: schema

/-- The text of one alternative. -/
def constant (text : String) : List (String × Value) :=
  ("const", str text) :: typed "string"

/-- The dialect that the schemas are written in. -/
def dialect : String × Value :=
  ("$schema", str "https://json-schema.org/draft/2020-12/schema")

/-! ## Forms -/

/-- What every question has. -/
def fieldProperties : List (String × List (String × Value)) := [
  ("name", withDefault (str "") (typed "string")),
  ("label", referenceOrNull "LocalizedText"),
  ("hint", referenceOrNull "LocalizedText"),
  ("required", withDefault (.bool false) (typed "boolean")),
  ("readOnly", withDefault (.bool false) (typed "boolean")),
  ("relevance", described "XPath expression gating whether the control is shown." textOrNull),
  ("constraint", described "XPath expression the answer must satisfy." textOrNull),
  ("destination",
    described "Explicit instance path overriding the default `/data/...` location." textOrNull)]

/-- A question with further properties. -/
def question (own : List (String × List (String × Value))) : List (String × Value) :=
  described "Properties shared by every leaf control." (objectOf (fieldProperties ++ own))

/-- The definition that describes controls of a kind apart from their tag. -/
def definitionOf : Kind → String
  | .group => "Group"
  | .branch => "Branch"
  | .text => "TextInput"
  | .numeric => "NumericInput"
  | .date | .location => "Field"
  | .media => "MediaInput"
  | .selectOne | .selectMany => "SelectInput"

/-- Controls of one kind. -/
def controlOf (kind : Kind) : Value :=
  .object
    (reference (definitionOf kind) ++ requiring ["type"] (objectOf [("type", constant kind.tag)]))

/-- The children of a group or an arm. -/
def childrenProperty : String × List (String × Value) :=
  ("children", withDefault (.array []) (listOf (reference "Control")))

/-- The definitions that the schema of a form refers to. -/
def definitions : List (String × List (String × Value)) := [
  ("Bounds", described "Exclusive numeric bounds used by length and range checks."
    (requiring ["min", "max"] (objectOf [
      ("min", ("format", str "double") :: typed "number"),
      ("max", ("format", str "double") :: typed "number")]))),
  ("Branch", described "Conditional sections whose controls live in the enclosing scope."
    (objectOf [
      ("name", textOrNull),
      ("branches", withDefault (.array []) (listOf (reference "BranchArm")))])),
  ("BranchArm", objectOf [
    ("conditions",
      described "XPath expressions that must all hold for the arm's controls to be relevant."
        (listOf (typed "string"))),
    childrenProperty]),
  ("Control", described "A node of the control tree, discriminated by its `type` tag."
    [("oneOf", .array (Kind.all.map controlOf))]),
  ("Field", question []),
  ("Group",
    described "Structural grouping; contributes a nested instance node and a body `group`."
      (objectOf [
        ("name", withDefault (str "") (typed "string")),
        ("label", referenceOrNull "LocalizedText"),
        childrenProperty])),
  ("LocalizedText", described "Display text keyed by language code."
    (("additionalProperties", .object (typed "string")) :: typed "object")),
  ("MediaInput", requiring ["kind"] (question [("kind", reference "MediaKind")])),
  ("MediaKind", ("enum", strs ["Image", "Audio", "Video"]) :: typed "string"),
  ("NumericInput", question [
    ("kind", withDefault (str "Integer") (reference "NumericKind")),
    ("range", referenceOrNull "Bounds")]),
  ("NumericKind", ("enum", strs ["Integer", "Decimal"]) :: typed "string"),
  ("SelectInput", question [("options", listOf (reference "SelectOption"))]),
  ("SelectOption", described "One choice of a select control." (requiring ["val"] (objectOf [
    ("text", withDefault (.object []) (reference "LocalizedText")),
    ("val", typed "string")]))),
  ("TextInput", question [("length", referenceOrNull "Bounds")])]

/-- A schema of its own, with the definitions that it refers to. -/
def document (title description : String) (properties : List (String × List (String × Value)))
    (definitions : List (String × List (String × Value))) : Value :=
  (Value.object (dialect :: ("title", str title) ::
    ("$defs", .object (definitions.map fun (name, schema) => (name, .object schema))) ::
    described description (objectOf properties))).sorted

/-- The schema of forms. -/
def form : Value :=
  document "Form" "Top-level form design handed to the compiler." [
    ("title", withDefault (str "") (typed "string")),
    ("controls", withDefault (.array []) (listOf (reference "Control")))]
    definitions

/-! ## Options -/

/-- The alternatives of referring to the instance. -/
def bodyRefs : List (String × Value) :=
  described "How body controls address their instance node." [("oneOf", .array [
    .object
      (described "`ref=\"/data/group/field\"`, the same path the bind uses." (constant "absolute")),
    .object
      (described "`ref=\"group/field\"`, as the legacy builder emitted." (constant "relative"))])]

/-- The schema of options. -/
def options : Value :=
  document "CompileOptions" "Settings for a single compile run." [
    ("languages", described "Active languages; one `translation` block each, in this order."
      (withDefault (strs Options.default.languages) (listOf (typed "string")))),
    ("instance_root", described "Tag name of the instance root."
      (withDefault (str Options.default.instanceRoot) (typed "string"))),
    ("form_id", described "Optional `id` attribute on the instance root." textOrNull),
    ("body_refs", withDefault (str Options.default.bodyRefs.name) (reference "BodyRefs"))]
    [("BodyRefs", bodyRefs)]

end FormDesign.Schema
