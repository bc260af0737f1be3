import FormDesign.Control.Read
import FormDesign.Document
import FormDesign.Failure
import FormDesign.Schema
import FormDesign.Text.Blank
import FormDesign.Xml.Codec

/-!
# The interface for hosts

Everything goes in and out as text: options and forms as JSON, documents as markup or as JSON,
failures as an object with a message. The options are read before the form, and a blank text stands
for the default options.
-/

namespace FormDesign.Host

open Json (Value Tree Fault)
open Xml (Node)

/-! ## Reading requests -/

/-- Reads the way to refer where the whole text has been read before. -/
def readRefs (room : Nat) (t : Tree) : Except Fault BodyRefs := do
  (← t.value room).choice Value.isEmptyObject BodyRefs.ofName

/-- Reads options from an object that is first read as a whole; what is no option is passed over. -/
def readConfig : Nat → Tree → Except Fault Options
  | room + 1, t@(.object _ _) => do
    -- What is wrong with the text is reported before what is wrong with an option.
    let _ ← t.value (room + 1)
    t.recordOf (Options.record readRefs room)
  | 0, .object _ _ => .error (.malformed .tooDeep)
  | _, t => .error (t.mismatch "struct ComponentConfig")

/-- The options that a text says. -/
def optionsOf (config : String) : Except Failure Options :=
  if Text.isBlank config then .ok .default
  else (Json.readText readConfig config).mapError .config

/-- The form that a text says. -/
def formOf (text : String) : Except Failure Form :=
  (Form.ofJson text).mapError .form

/-- The document of the form that a text says. -/
def documentOf (config form : String) : Except Failure Node := do
  let options ← optionsOf config
  let form ← formOf form
  (form.compile options).mapError .refused

/-! ## Answers -/

/-- The answer to a request that comes to nothing. -/
def refusal (failure : Failure) : String :=
  (Value.object [("error", .string failure.message)]).compact

/-- Whether the form that a text says can be compiled. -/
def check (form : String) : String :=
  let outcome := do (← formOf form).check.mapError Failure.refused
  match outcome with
  | .ok () => (Value.object [("valid", .bool true)]).compact
  | .error failure =>
    (Value.object [("error", .string failure.message), ("valid", .bool false)]).compact

/-- The document of a form as markup. -/
def compileXml (config form : String) : String :=
  match documentOf config form with
  | .ok node => node.render
  | .error failure => refusal failure

/-- The document of a form as JSON, with the members of every object sorted by key. -/
def compileTree (config form : String) : String :=
  match documentOf config form with
  | .ok node => node.toValue.sorted.compact
  | .error failure => refusal failure

/-- The schemas of forms and of options. -/
def describeSchema : String :=
  (Value.object [("config", Schema.options), ("form", Schema.form)]).compact

end FormDesign.Host
