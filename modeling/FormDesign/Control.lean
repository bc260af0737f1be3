import FormDesign.LocalizedText

/-!
# Controls

A form is a list of controls. A control asks a question, groups other controls, or branches: the
arms of a branch hold controls that are only relevant when the conditions of their arm hold, but
that stand in the same scope as the branch itself.
-/

namespace FormDesign

/-- Bounds of a length or of a number, both exclusive. -/
structure Bounds where
  min : Float
  max : Float
  deriving DecidableEq

/-- What numbers are asked for. -/
inductive NumericKind
  | integer
  | decimal
  deriving DecidableEq

/-- What recordings are asked for. -/
inductive MediaKind
  | image
  | audio
  | video
  deriving DecidableEq

/-- The media types that a recording may have. -/
def MediaKind.mediaType : MediaKind → String
  | image => "image/*"
  | audio => "audio/*"
  | video => "video/*"

/-- One of the answers to choose from. -/
structure Choice where
  text : LocalizedText
  value : String
  deriving DecidableEq

/-- What every question has. -/
structure Field where
  name : String
  label : Option LocalizedText
  hint : Option LocalizedText
  required : Bool
  readOnly : Bool
  /-- An expression that says when the question is asked. -/
  relevance : Option String
  /-- An expression that an answer must satisfy. -/
  constraint : Option String
  /-- A path for the answer in place of the one that follows from the names. -/
  destination : Option String
  deriving DecidableEq

/-- A field with nothing but a name. -/
def Field.named (name : String) : Field where
  name
  label := none
  hint := none
  required := false
  readOnly := false
  relevance := none
  constraint := none
  destination := none

/-- What a question asks for. -/
inductive Input
  | text (length : Option Bounds)
  | numeric (kind : NumericKind) (range : Option Bounds)
  | date
  | location
  | media (kind : MediaKind)
  | selectOne (options : List Choice)
  | selectMany (options : List Choice)
  deriving DecidableEq

namespace Input

/-- The bounds that the answer must keep. -/
def bounds? : Input → Option Bounds
  | text length => length
  | numeric _ range => range
  | _ => none

/-- The answers to choose from. -/
def choices : Input → List Choice
  | selectOne options | selectMany options => options
  | _ => []

end Input

/-- One arm of a branch: conditions that must all hold, and what is asked then. -/
structure Arm (α : Type) where
  conditions : List String
  children : List α

/-- A control. -/
inductive Control
  | group (name : String) (label : Option LocalizedText) (children : List Control)
  | branch (name : Option String) (arms : List (Arm Control))
  | question (field : Field) (input : Input)

instance : Inhabited Control := ⟨.branch none []⟩

/-- The kinds of controls. -/
inductive Kind
  | group
  | branch
  | text
  | numeric
  | date
  | location
  | media
  | selectOne
  | selectMany
  deriving DecidableEq

namespace Kind

/-- The tag that a control of this kind is written with. -/
def tag : Kind → String
  | group => "group"
  | branch => "branch"
  | text => "inputText"
  | numeric => "inputNumeric"
  | date => "inputDate"
  | location => "inputLocation"
  | media => "inputMedia"
  | selectOne => "inputSelectOne"
  | selectMany => "inputSelectMany"

/-- All kinds, in the order in which they are numbered. -/
def all : List Kind :=
  [group, branch, text, numeric, date, location, media, selectOne, selectMany]

/-- The kind with this tag. -/
def ofTag? (tag : String) : Option Kind :=
  all.find? fun kind => kind.tag = tag

/-- The tag of a kind says which kind it is. -/
@[simp]
theorem ofTag?_tag (kind : Kind) : ofTag? kind.tag = some kind := by
  cases kind <;> decide

end Kind

/-- The kind of a question. -/
def Input.kind : Input → Kind
  | text _ => .text
  | numeric _ _ => .numeric
  | date => .date
  | location => .location
  | media _ => .media
  | selectOne _ => .selectOne
  | selectMany _ => .selectMany

namespace Control

/-- The kind of a control. -/
def kind : Control → Kind
  | group _ _ _ => .group
  | branch _ _ => .branch
  | question _ input => input.kind

/-- The name of a control; a branch need not have one. -/
def name? : Control → Option String
  | group name _ _ => some name
  | branch name _ => name
  | question field _ => some field.name

/-- What a control has as a question. -/
def field? : Control → Option Field
  | question field _ => some field
  | _ => none

end Control

/-- A form: a title and controls. -/
structure Form where
  title : String
  controls : List Control

instance : Inhabited Form := ⟨⟨"", []⟩⟩

end FormDesign
