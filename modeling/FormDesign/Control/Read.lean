import FormDesign.Control.Write
import FormDesign.Text.Blank

/-!
# Reading controls from JSON

A control is read in two steps. First its tag is found, and everything else in it is read as plain
values; then the values are read as what the kind of the control wants. A property may go by its own
name or by an older one, and the older spellings of "not set" are understood: an empty text for a
missing label, white space for a missing expression, flag or list, `false` for missing bounds.

* `Control.read` reads a control that stands in a text, `Control.ofValue` one inside another
  control.
-/

namespace FormDesign

open Json (Value Tree Fault Record Slot)

/-! ## Properties -/

/-- The fault of a property that has none of the shapes it may have. -/
def shapeless : Fault :=
  .refused "data did not match any variant of untagged enum Repr"

/-- Reads a label or hint. One without any text is not set. -/
def readLabel : Value → Except Fault (Option LocalizedText)
  | .null => .ok none
  | .string s =>
    if s.isEmpty then .ok none
    else .error (.refused "localized text must be an object keyed by language code")
  | v =>
    match LocalizedText.ofValue? v with
    | some t => .ok (if t.isBlank then none else some t)
    | none => .error shapeless

/-- Reads an expression, a path or a name that need not be set. A blank one is not set. -/
def readUnlessBlank (v : Value) : Except Fault (Option String) := do
  match ← v.orNull Value.text with
  | some s => return if Text.isBlank s then none else some s
  | none => return none

/-- Reads a property that has a default, for which null and blank texts also stand. -/
def readOrDefault {α : Type} (read? : Value → Option α) (default : α) (v : Value) :
    Except Fault α :=
  match v, read? v with
  | .null, _ => .ok default
  | _, some a => .ok a
  | .string s, none =>
    if Text.isBlank s then .ok default else .error (.refused s!"unexpected value '{s}'")
  | _, none => .error shapeless

/-- The flag that a value is. -/
def flagOfValue? : Value → Option Bool
  | .bool b => some b
  | _ => none

/-- How bounds are read. -/
def Bounds.record : Record Value Bounds where
  expected := "struct Bounds"
  slots := [
    .mandatory "min" [] Value.float fun min b => { b with min },
    .mandatory "max" [] Value.float fun max b => { b with max }]
  blank := ⟨0, 0⟩

/-- The bounds that a value is. -/
def Bounds.ofValue? (v : Value) : Option Bounds :=
  (Value.recordOf Bounds.record v).toOption

/-- Reads bounds that need not be set. -/
def readBounds (v : Value) : Except Fault (Option Bounds) :=
  let unfit : Fault := .refused "bounds must be an object with min and max, or false"
  match v with
  | .null | .bool false => .ok none
  | .bool true => .error unfit
  | .string s => if Text.isBlank s then .ok none else .error unfit
  | v =>
    match Bounds.ofValue? v with
    | some b => .ok (some b)
    | none => .error shapeless

/-- The kind of numbers with this name. -/
def NumericKind.ofName : String → Except Fault NumericKind
  | "Integer" => .ok .integer
  | "Decimal" => .ok .decimal
  | name => .error (.mismatch (.unknownVariant name ["Integer", "Decimal"]))

/-- The kind of numbers that a value is. -/
def NumericKind.ofValue? (v : Value) : Option NumericKind :=
  (v.choice (fun _ => false) ofName).toOption

/-- The kind of recordings with this name. -/
def MediaKind.ofName : String → Except Fault MediaKind
  | "Image" => .ok .image
  | "Audio" => .ok .audio
  | "Video" => .ok .video
  | name => .error (.mismatch (.unknownVariant name ["Image", "Audio", "Video"]))

/-- How a choice is read. -/
def Choice.record : Record Value Choice where
  expected := "struct SelectOption"
  slots := [
    .optional "text" []
      (fun v => match LocalizedText.ofValue? v with
        | some t => .ok t
        | none => .error (v.mismatch "a map"))
      fun text c => { c with text },
    .mandatory "val" ["value"] Value.text fun value c => { c with value }]
  blank := ⟨.empty, ""⟩

/-- The list of choices that a value is. -/
def choicesOfValue? (v : Value) : Option (List Choice) :=
  (v.listOf (Value.recordOf Choice.record)).toOption

/-! ## Questions -/

/-- How what every question has is read. -/
def Field.record : Record Value Field where
  expected := "struct Field"
  slots := [
    .optional "name" ["Name"] Value.text fun name f => { f with name },
    .optional "label" ["Label"] readLabel fun label f => { f with label },
    .optional "hint" ["Hint"] readLabel fun hint f => { f with hint },
    .optional "required" ["Required"] (readOrDefault flagOfValue? false) fun required f =>
      { f with required },
    .optional "readOnly" ["Read Only"] (readOrDefault flagOfValue? false) fun readOnly f =>
      { f with readOnly },
    .optional "relevance" ["Relevance"] readUnlessBlank fun relevance f => { f with relevance },
    .optional "constraint" ["Constraint"] readUnlessBlank fun constraint f => { f with constraint },
    .optional "destination" ["Instance Destination"] readUnlessBlank fun destination f =>
      { f with destination }]
  blank := .named ""

/-- How the length of a text is read. -/
def textRecord : Record Value (Option Bounds) where
  expected := "struct TextInput"
  slots := [.optional "length" ["Length"] readBounds fun length _ => length]
  blank := none

/-- How the kind and the range of a number are read. -/
def numericRecord : Record Value (NumericKind × Option Bounds) where
  expected := "struct NumericInput"
  slots := [
    .optional "kind" ["Kind"] (readOrDefault NumericKind.ofValue? .integer) fun kind (_, range) =>
      (kind, range),
    .optional "range" ["Range"] readBounds fun range (kind, _) => (kind, range)]
  blank := (.integer, none)

/-- How the kind of a recording is read. -/
def mediaRecord : Record Value MediaKind where
  expected := "struct MediaInput"
  slots := [
    .mandatory "kind" ["Kind"] (Value.choice Value.isEmptyObject MediaKind.ofName) fun kind _ =>
      kind]
  blank := .image

/-- How the choices of a selection are read. -/
def selectRecord : Record Value (List Choice) where
  expected := "struct SelectInput"
  slots := [
    .optional "options" ["Options"] (readOrDefault choicesOfValue? []) fun options _ => options]
  blank := []

namespace Control

/-! ## Containers -/

/-- A group as it is read. -/
structure GroupParts where
  name : String
  label : Option LocalizedText
  children : List Control

/-- How a group is read, given what reads its children. -/
def groupRecord (child : Value → Except Fault Control) : Record Value GroupParts where
  expected := "struct Group"
  slots := [
    .optional "name" ["Name"] Value.text fun name g => { g with name },
    .optional "label" ["Label"] readLabel fun label g => { g with label },
    .optional "children" [] (Value.listOf child) fun children g => { g with children }]
  blank := ⟨"", none, []⟩

/-- How an arm is read, given what reads its children. -/
def armRecord (child : Value → Except Fault Control) : Record Value (Arm Control) where
  expected := "struct BranchArm"
  slots := [
    .optional "conditions" [] (Value.listOf Value.text) fun conditions a => { a with conditions },
    .optional "children" [] (Value.listOf child) fun children a => { a with children }]
  blank := ⟨[], []⟩

/-- A branch as it is read. -/
structure BranchParts where
  name : Option String
  arms : List (Arm Control)

/-- How a branch is read, given what reads the children of its arms. -/
def branchRecord (child : Value → Except Fault Control) : Record Value BranchParts where
  expected := "struct Branch"
  slots := [
    .optional "name" ["Name"] readUnlessBlank fun name b => { b with name },
    .optional "branches" [] (Value.listOf (Value.recordOf (armRecord child))) fun arms b =>
      { b with arms }]
  blank := ⟨none, []⟩

/-! ## Controls -/

/-- A control without its tag: the members of an object or the items of a list. -/
inductive Body
  | members (members : List (String × Value))
  | items (items : List Value)

/-- Reads a record from what is left of a control. -/
def Body.record {ρ : Type} (r : Record Value ρ) : Body → Except Fault ρ
  | members ms => Value.recordOfMembers r ms
  | items is => Value.recordOfItems r is

/-- Reads a question from what is left of a control: what belongs to its kind, and then what every
question has. Questions of these kinds cannot be written as lists. -/
def Body.question {ρ : Type} (r : Record Value ρ) (input : ρ → Input) : Body → Except Fault Control
  | members ms => do
    -- Both records read the same members, and each passes over those of the other.
    let own ← Value.recordOfMembers r ms
    let field ← Value.recordOfMembers Field.record ms
    return .question field (input own)
  | items _ => .error (.wrongType .sequence r.expected)

/-- Reads a control of a known kind, given what reads the controls in it. -/
def ofBody (child : Value → Except Fault Control) : Kind → Body → Except Fault Control
  | .group, body => do
    let g ← body.record (groupRecord child)
    return .group g.name g.label g.children
  | .branch, body => do
    let b ← body.record (branchRecord child)
    return .branch b.name b.arms
  | .text, body => body.question textRecord .text
  | .numeric, body => body.question numericRecord fun (kind, range) => .numeric kind range
  | .date, body => do return .question (← body.record Field.record) .date
  | .location, body => do return .question (← body.record Field.record) .location
  | .media, body => body.question mediaRecord .media
  | .selectOne, body => body.question selectRecord .selectOne
  | .selectMany, body => body.question selectRecord .selectMany

/-- The kind with this tag. -/
def kindOfTag (tag : String) : Except Fault Kind :=
  match Kind.ofTag? tag with
  | some kind => .ok kind
  | none => .error (.mismatch (.unknownVariant tag (Kind.all.map Kind.tag)))

/-- The kind that a value tells: a tag or the number of a kind. -/
def kindOfValue : Value → Except Fault Kind
  | .string s => kindOfTag s
  | .number (.int n) =>
    if n < 0 then .error (.wrongType (.number (.int n)) "variant identifier")
    else match Kind.all[n.toNat]? with
      | some kind => .ok kind
      | none => .error (.mismatch
          (.value (.number (.int n)) s!"variant index 0 <= i < {Kind.all.length}"))
  | v => .error (v.mismatch "variant identifier")

/-- Finds the tag among the members of a control and reads the other members as they come, given the
kind if the tag has been found. The tag may stand anywhere, but only once. -/
def splitMembers {χ : Type} (tag : χ → Except Fault Kind) (content : χ → Except Fault Value) :
    Option Kind → List (Except Fault String × χ) →
      Except Fault (Option Kind × List (String × Value))
  | kind, [] => .ok (kind, [])
  | kind, (key, c) :: members => do
    let key ← key
    if key = "type" then
      if kind.isSome then throw (.mismatch (.duplicateField "type"))
      let kind ← tag c
      splitMembers tag content (some kind) members
    else
      let v ← content c
      let (kind, members) ← splitMembers tag content kind members
      return (kind, (key, v) :: members)

/-- The fault of a control without a tag. -/
def untagged : Fault :=
  .mismatch (.missingField "type")

/-- What is wanted where a control should stand. -/
def expected : String :=
  "internally tagged enum Control"

/-- The kind and the rest of a control that stands in a text. -/
def splitTree (room : Nat) : Tree → Except Fault (Kind × Body)
  | .object members ending => do
    let tag (t : Tree) : Except Fault Kind := do kindOfTag (← t.textAs "variant identifier")
    let (kind, members) ←
      splitMembers tag (Tree.value room) none (members.map fun (key, t) => (key.read, t))
    ending.readObject
    match kind with
    | some kind => return (kind, .members members)
    | none => throw untagged
  | .array [] ending => do
    ending.readList
    throw untagged
  | .array (tag :: items) ending => do
    let kind ← kindOfTag (← tag.textAs "variant identifier")
    let items ← items.mapM (Tree.value room)
    ending.readList
    return (kind, .items items)
  | t => .error (t.mismatch expected)

/-- The kind and the rest of a control that is a value. -/
def splitValue : Value → Except Fault (Kind × Body)
  | .object members => do
    let (kind, members) ←
      splitMembers kindOfValue .ok none (members.map fun (key, v) => (.ok key, v))
    match kind with
    | some kind => return (kind, .members members)
    | none => throw untagged
  | .array [] => .error untagged
  | .array (tag :: items) => do return (← kindOfValue tag, .items items)
  | v => .error (v.mismatch expected)

/-- Reads a control that is a value. Controls stand inside one another at most `room` deep. -/
def ofValue : Nat → Value → Except Fault Control
  | 0, _ => .error (.malformed .tooDeep)
  | room + 1, v => do
    let (kind, body) ← splitValue v
    ofBody (ofValue room) kind body

/-- Reads a control that stands in a text. -/
def read : Nat → Tree → Except Fault Control
  | 0, t => t.noRecord expected
  | room + 1, t => do
    let (kind, body) ← splitTree room t
    ofBody (ofValue room) kind body

end Control

namespace Form

/-- How a form is read. -/
def record (room : Nat) : Record Tree Form where
  expected := "struct Form"
  slots := [
    .optional "title" [] Tree.text fun title f => { f with title },
    .optional "controls" [] (Tree.list Control.read room) fun controls f => { f with controls }]
  blank := ⟨"", []⟩

/-- Reads a form that stands in a text. -/
def read : Nat → Tree → Except Fault Form :=
  Tree.record "struct Form" record

/-- Reads a form from a JSON text. -/
def ofJson (text : String) : Except Fault Form :=
  Json.readText read text

end Form

end FormDesign
