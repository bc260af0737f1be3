import FormDesign.Document.Fragment
import FormDesign.Form.Check
import FormDesign.Translations
import FormDesign.Xml.Render

/-!
# Documents

The document that a form is compiled to: a head with the title and the model, which holds the
instance, the translations and the binds, and a body. A form is compiled only when the options and
the form pass their checks, in this order.
-/

namespace FormDesign

open Xml (Node Attributes)

/-- The labels of the namespaces that a document uses, the unlabelled one first. -/
def namespaces : List (String × String) := [
  ("xmlns", "http://www.w3.org/2002/xforms"),
  ("xmlns:h", "http://www.w3.org/1999/xhtml"),
  ("xmlns:ev", "http://www.w3.org/2001/xml-events"),
  ("xmlns:xsd", "http://www.w3.org/2001/XMLSchema"),
  ("xmlns:jr", "http://openrosa.org/javarosa")]

namespace Form

/-- What the controls of a form contribute. -/
def fragment (quote : String → String) (form : Form) (options : Options) : Fragment :=
  Control.fragments quote options.bodyRefs (.top options.instanceRoot) form.controls

end Form

namespace Fragment

/-- The texts of a fragment, registered for the active languages. -/
def translations (quote : String → String) (f : Fragment) (options : Options) : Translations :=
  (Translations.empty options.languages).registerAll quote f.texts

/-- The root of the instance. -/
def instanceRoot (quote : String → String) (f : Fragment) (options : Options) : Node :=
  (Node.parent options.instanceRoot .empty f.inst).attr? "id" (options.formId.map quote)

/-- The model: instance, translations and binds. -/
def model (quote : String → String) (f : Fragment) (options : Options) : Node :=
  .parent "model" .empty (
    .parent "instance" .empty [f.instanceRoot quote options] ::
    (f.translations quote options).itext ::
    f.binds)

/-- The document that a fragment makes with a title. -/
def document (quote : String → String) (f : Fragment) (title : String) (options : Options) : Node :=
  .parent "h:html" (.ofList namespaces) [
    .parent "h:head" .empty [.text "h:title" .empty (quote title), f.model quote options],
    .parent "h:body" .empty f.body]

end Fragment

namespace Form

/-- The document of a form, with texts written by `quote`, whatever the form and the options are. -/
def documentWith (quote : String → String) (form : Form) (options : Options) : Node :=
  (form.fragment quote options).document quote form.title options

/-- Compiles a form. -/
def compile (form : Form) (options : Options) : Except Defect Node := do
  -- The options come first: where both are at fault, the form is not looked at.
  options.check
  form.check
  return form.documentWith Xml.escape options

/-- Compiles a form to the text of its document. -/
def compileToText (form : Form) (options : Options) : Except Defect String :=
  Node.render <$> form.compile options

end Form

end FormDesign
