import FormDesign.Control
import FormDesign.Decimal.Numeral
import FormDesign.Document.Scope
import FormDesign.Options
import FormDesign.Xml.Node

/-!
# Fragments

What controls contribute to a document: elements of the instance, elements of the body, binds, and
the texts that the body refers to. Fragments are put one after another, and what a control
contributes depends on the control and its scope alone.

Everywhere, `quote` is how a text of the form is written where markup is read, in a text or in the
value of an attribute.
-/

namespace FormDesign

open Xml (Node)

/-- What controls contribute to a document. -/
structure Fragment where
  inst : List Node
  body : List Node
  binds : List Node
  /-- The texts that the body refers to, each under its path. -/
  texts : List (String × LocalizedText)

namespace Fragment

/-- No contribution. -/
def empty : Fragment := ⟨[], [], [], []⟩

/-- Both contributions, one after the other. -/
def append (a b : Fragment) : Fragment :=
  ⟨a.inst ++ b.inst, a.body ++ b.body, a.binds ++ b.binds, a.texts ++ b.texts⟩

instance : Append Fragment := ⟨append⟩

end Fragment

/-! ## Clauses -/

/-- Clauses that must all hold, each in parentheses. -/
def conjunction (clauses : List String) : Option String :=
  if clauses = [] then none else some ("(" ++ ") and (".intercalate clauses ++ ")")

/-- The clause that an answer lies strictly between bounds. -/
def Bounds.clause (b : Bounds) : String :=
  s!". > {Decimal.plainText b.min} and . < {Decimal.plainText b.max}"

/-! ## Kinds of questions -/

namespace Input

/-- The body element that asks the question. -/
def bodyTag : Input → String
  | media _ => "upload"
  | selectOne _ => "select1"
  | selectMany _ => "select"
  | _ => "input"

/-- The type of the answer. -/
def bindType? : Input → Option String
  | text _ => some "string"
  | numeric .integer _ => some "int"
  | numeric .decimal _ => some "decimal"
  | date => some "date"
  | location => some "geopoint"
  | media _ => some "binary"
  | selectOne _ | selectMany _ => none

/-- The media types that the body element accepts. -/
def mediaType? : Input → Option String
  | media kind => some kind.mediaType
  | _ => none

end Input

/-! ## Questions -/

/-- A label or hint that is shown: one with some text in some language. -/
def visible? (text : Option LocalizedText) : Option LocalizedText :=
  text.filter fun t => !t.isBlank

/-- A text of the body: the element that refers to it, its path, and what it says. -/
structure Caption where
  element : String
  path : String
  text : LocalizedText

/-- The body element of a caption. -/
def Caption.node (quote : String → String) (c : Caption) : Node :=
  (Node.empty c.element .empty).attr "ref" s!"jr:itext('{quote c.path}')"

/-- What a caption registers. -/
def Caption.entry (c : Caption) : String × LocalizedText :=
  (c.path, c.text)

/-- The label or hint of what stands at `path`, if it is shown. -/
def captionOf (element path : String) (text : Option LocalizedText) : List Caption :=
  match visible? text with
  | some text => [⟨element, s!"{path}:{element}", text⟩]
  | none => []

namespace Field

/-- The path of the answer that follows from the names. -/
def path (scope : Scope) (field : Field) : String :=
  scope.path ++ field.name

/-- The path that the bind of a question names. -/
def nodeset (quote : String → String) (scope : Scope) (field : Field) : String :=
  match field.destination with
  | some destination => quote destination
  | none => field.path scope

/-- What the body element of a question refers to. -/
def bodyRef (quote : String → String) (refs : BodyRefs) (scope : Scope) (field : Field) : String :=
  match field.destination, refs with
  -- A destination is where the answer goes, so the body names it too, however else it refers.
  | some destination, _ => quote destination
  | none, .absolute => field.path scope
  | none, .relative => scope.below ++ field.name

/-- The clauses that say when a question is asked: the conditions around it and its own. -/
def relevanceClauses (scope : Scope) (field : Field) : List String :=
  scope.conditions ++ field.relevance.toList

/-- The clauses that an answer must satisfy: its bounds and the constraint of the question. -/
def constraintClauses (field : Field) (input : Input) : List String :=
  (input.bounds?.map Bounds.clause).toList ++ field.constraint.toList

/-- The bind of a question. -/
def bind (quote : String → String) (scope : Scope) (field : Field) (input : Input) : Node :=
  -- Attributes stand in the order in which they are set; what a question does not have is left out.
  (((((Node.empty "bind" .empty).attr "nodeset" (field.nodeset quote scope)
    ).attr? "type" input.bindType?
    ).attr? "readonly" (if field.readOnly then some "true()" else none)
    ).attr? "required" (if field.required then some "true()" else none)
    ).attr? "relevant" (conjunction ((field.relevanceClauses scope).map quote))
    |>.attr? "constraint" (conjunction ((field.constraintClauses input).map quote))

/-- The label and the hint of a question. -/
def captions (scope : Scope) (field : Field) : List Caption :=
  captionOf "label" (field.path scope) field.label ++ captionOf "hint" (field.path scope) field.hint

/-- The caption of the choice at `index`. -/
def choiceCaption (scope : Scope) (field : Field) (choice : Choice) (index : Nat) : Caption :=
  ⟨"label", s!"{field.path scope}:option{index}", choice.text⟩

/-- The body element of the choice at `index`. -/
def choiceNode (quote : String → String) (scope : Scope) (field : Field) (choice : Choice)
    (index : Nat) : Node :=
  .parent "item" .empty [(field.choiceCaption scope choice index).node quote,
    .text "value" .empty (quote choice.value)]

/-- The body element of a question. -/
def bodyNode (quote : String → String) (refs : BodyRefs) (scope : Scope) (field : Field)
    (input : Input) : Node :=
  ((Node.parent input.bodyTag .empty
      ((field.captions scope).map (Caption.node quote) ++
        input.choices.zipIdx.map fun (choice, index) => field.choiceNode quote scope choice index)
    ).attr "ref" (field.bodyRef quote refs scope)).attr? "mediatype" input.mediaType?

/-- The texts of a question. -/
def texts (scope : Scope) (field : Field) (input : Input) : List (String × LocalizedText) :=
  (field.captions scope).map Caption.entry ++
    input.choices.zipIdx.map fun (choice, index) => (field.choiceCaption scope choice index).entry

/-- What a question contributes. -/
def fragment (quote : String → String) (refs : BodyRefs) (scope : Scope) (field : Field)
    (input : Input) : Fragment where
  inst := [.empty field.name .empty]
  body := [field.bodyNode quote refs scope input]
  binds := [field.bind quote scope input]
  texts := field.texts scope input

end Field

/-! ## Controls -/

namespace Fragment

/-- What a group contributes, given what the controls in it do. -/
def group (quote : String → String) (scope : Scope) (name : String) (label : Option LocalizedText)
    (inside : Fragment) : Fragment :=
  let captions := captionOf "label" (scope.path ++ name) label
  -- A group has an element of its own in the instance and in the body, but no bind.
  { inst := [.parent name .empty inside.inst]
    body := [.parent "group" .empty (captions.map (Caption.node quote) ++ inside.body)]
    binds := inside.binds
    texts := captions.map Caption.entry ++ inside.texts }

end Fragment

namespace Control

mutual

/-- What a control contributes. -/
def fragment (quote : String → String) (refs : BodyRefs) (scope : Scope) : Control → Fragment
  | group name label children =>
    .group quote scope name label (fragments quote refs (scope.group name) children)
  -- A branch leaves no trace but the conditions of its arms.
  | branch _ arms => armFragments quote refs scope arms
  | question field input => field.fragment quote refs scope input

/-- What controls contribute one after another. -/
def fragments (quote : String → String) (refs : BodyRefs) (scope : Scope) : List Control → Fragment
  | [] => .empty
  | control :: controls => fragment quote refs scope control ++ fragments quote refs scope controls

/-- What arms contribute one after another; the conditions of an arm hold for its own controls. -/
def armFragments (quote : String → String) (refs : BodyRefs) (scope : Scope) :
    List (Arm Control) → Fragment
  | [] => .empty
  | ⟨conditions, children⟩ :: arms =>
    fragments quote refs (scope.arm conditions) children ++ armFragments quote refs scope arms

end

/-! ## Visits -/

/-- The visit of a control while a form is compiled. -/
structure Visit where
  kind : Kind
  name : String
  path : String

mutual

/-- The visits of a control and of those in it, the outer one first. -/
def visits (scope : Scope) : Control → List Visit
  | group name _ children => ⟨.group, name, scope.path⟩ :: visitsAll (scope.group name) children
  | branch name arms => ⟨.branch, name.getD "", scope.path⟩ :: visitsArms scope arms
  | question field input => [⟨input.kind, field.name, scope.path⟩]

/-- The visits of controls one after another. -/
def visitsAll (scope : Scope) : List Control → List Visit
  | [] => []
  | control :: controls => visits scope control ++ visitsAll scope controls

/-- The visits of the controls of arms one after another. -/
def visitsArms (scope : Scope) : List (Arm Control) → List Visit
  | [] => []
  | ⟨_, children⟩ :: arms => visitsAll scope children ++ visitsArms scope arms

end

end Control

end FormDesign
