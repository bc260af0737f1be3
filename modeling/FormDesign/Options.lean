import FormDesign.Defect
import FormDesign.Json.Print
import FormDesign.Json.Tree.Read
import FormDesign.Json.Value.Read
import FormDesign.Text.Name

/-!
# Options

What a compilation is told besides the form: the active languages, the name of the instance root and
its identifier, and how the controls of the body refer to the instance.
-/

namespace FormDesign

open Json (Value Tree Fault Record Slot)

/-- How the controls of the body refer to the instance. -/
inductive BodyRefs
  /-- By the path that the bind has. -/
  | absolute
  /-- By the path below the instance root. -/
  | relative
  deriving DecidableEq

/-- The options of a compilation. -/
structure Options where
  /-- The active languages, in the order of their translations. -/
  languages : List String
  instanceRoot : String
  formId : Option String
  bodyRefs : BodyRefs
  deriving DecidableEq

namespace Options

/-- English, a root named `data`, no identifier and absolute references. -/
def default : Options where
  languages := ["en"]
  instanceRoot := "data"
  formId := none
  bodyRefs := .absolute

instance : Inhabited Options := ⟨default⟩

/-! ## Check -/

/-- The first text that has occurred before. -/
def firstRepeat? (seen : List String) : List String → Option String
  | [] => none
  | s :: rest => if s ∈ seen then some s else firstRepeat? (s :: seen) rest

/-- Checks that there is a language, that none is repeated, and that the root has a name. -/
def check (options : Options) : Except Defect Unit :=
  if options.languages = [] then .error .noLanguages
  -- The first language that occurs again is reported, not the first that is repeated.
  else match firstRepeat? [] options.languages with
    | some language => .error (.duplicateLanguage language)
    | none =>
      if Text.isName options.instanceRoot then .ok ()
      else .error (.invalidInstanceRoot options.instanceRoot)

/-! ## As JSON -/

end Options

/-- The name of a way to refer. -/
def BodyRefs.name : BodyRefs → String
  | absolute => "absolute"
  | relative => "relative"

/-- The way to refer with this name. -/
def BodyRefs.ofName : String → Except Fault BodyRefs
  | "absolute" => .ok .absolute
  | "relative" => .ok .relative
  | name => .error (.mismatch (.unknownVariant name ["absolute", "relative"]))

namespace Options

/-- Options as an object. -/
def toValue (options : Options) : Value :=
  .object ([("languages", .array (options.languages.map .string)),
      ("instance_root", .string options.instanceRoot)] ++
    (match options.formId with
      | some id => [("form_id", .string id)]
      | none => []) ++
    [("body_refs", .string options.bodyRefs.name)])

/-- How options are read, given what reads the way to refer. What is not given stays at its
default. -/
def record (refs : Nat → Tree → Except Fault BodyRefs) (room : Nat) : Record Tree Options where
  expected := "struct CompileOptions"
  slots := [
    .optional "languages" [] (Tree.list (fun _ => Tree.text) room) fun languages o =>
      { o with languages },
    .optional "instance_root" [] Tree.text fun instanceRoot o => { o with instanceRoot },
    .optional "form_id" [] (Tree.orNull Tree.text) fun formId o => { o with formId },
    .optional "body_refs" [] (refs room) fun bodyRefs o => { o with bodyRefs }]
  blank := default

/-- Reads options that stand in a text. -/
def read : Nat → Tree → Except Fault Options :=
  Tree.record "struct CompileOptions" (record (Tree.choice BodyRefs.ofName))

/-- Reads options from a JSON text. -/
def ofJson (text : String) : Except Fault Options :=
  Json.readText read text

end Options

end FormDesign
