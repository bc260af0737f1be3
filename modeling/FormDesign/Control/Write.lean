import FormDesign.Control

/-!
# Writing controls as JSON

A control is an object that begins with the tag of its kind, followed by what every question has and
then by what belongs to its kind. What is not set is left out.
-/

namespace FormDesign

open Json (Value)

/-- A member that is left out where there is nothing to write. -/
def memberOf (key : String) (v : Option Value) : List (String × Value) :=
  match v with
  | some v => [(key, v)]
  | none => []

/-- Bounds as an object. -/
def Bounds.toValue (b : Bounds) : Value :=
  .object [("min", .number (.float b.min)), ("max", .number (.float b.max))]

/-- The name of a kind of numbers. -/
def NumericKind.name : NumericKind → String
  | integer => "Integer"
  | decimal => "Decimal"

/-- The name of a kind of recordings. -/
def MediaKind.name : MediaKind → String
  | image => "Image"
  | audio => "Audio"
  | video => "Video"

/-- A choice as an object. -/
def Choice.toValue (c : Choice) : Value :=
  .object [("text", c.text.toValue), ("val", .string c.value)]

/-- The members of what every question has. -/
def Field.members (f : Field) : List (String × Value) :=
  ("name", .string f.name) ::
    memberOf "label" (f.label.map LocalizedText.toValue) ++
    memberOf "hint" (f.hint.map LocalizedText.toValue) ++
    [("required", .bool f.required), ("readOnly", .bool f.readOnly)] ++
    memberOf "relevance" (f.relevance.map .string) ++
    memberOf "constraint" (f.constraint.map .string) ++
    memberOf "destination" (f.destination.map .string)

/-- The member of a list of choices. -/
def choiceMember (options : List Choice) : List (String × Value) :=
  if options.isEmpty then [] else [("options", .array (options.map Choice.toValue))]

/-- The members of what belongs to the kind of a question. -/
def Input.members : Input → List (String × Value)
  | text length => memberOf "length" (length.map Bounds.toValue)
  | numeric kind range => ("kind", .string kind.name) :: memberOf "range" (range.map Bounds.toValue)
  | date => []
  | location => []
  | media kind => [("kind", .string kind.name)]
  | selectOne options => choiceMember options
  | selectMany options => choiceMember options

namespace Control

/-- The member that tells the kind of a control. -/
def tagMember (kind : Kind) : String × Value :=
  ("type", .string kind.tag)

mutual

/-- A control as an object. -/
def toValue : Control → Value
  | group name label children =>
    .object (tagMember .group :: ("name", .string name) ::
      memberOf "label" (label.map LocalizedText.toValue) ++
      [("children", .array (toValues children))])
  | branch name arms =>
    .object (tagMember .branch :: memberOf "name" (name.map .string) ++
      [("branches", .array (armValues arms))])
  | question field input => .object (tagMember input.kind :: field.members ++ input.members)

/-- Controls as objects. -/
def toValues : List Control → List Value
  | [] => []
  | control :: controls => control.toValue :: toValues controls

/-- Arms as objects; conditions are left out where there are none. -/
def armValues : List (Arm Control) → List Value
  | [] => []
  | ⟨conditions, children⟩ :: arms =>
    .object
      ((if conditions.isEmpty then [] else [("conditions", .array (conditions.map .string))]) ++
        [("children", .array (toValues children))]) :: armValues arms

end

end Control

/-- A form as an object. -/
def Form.toValue (form : Form) : Value :=
  .object [("title", .string form.title), ("controls", .array (Control.toValues form.controls))]

end FormDesign
