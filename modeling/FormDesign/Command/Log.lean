import FormDesign.Document
import FormDesign.Text.Quoted

/-!
# Log lines

What is told about a run while it goes on. A line has a level, comes from an area of the program,
and tells values under keys. What is told while a form is compiled is told within that compilation,
which has a name, a level and values of its own, and may be put in front of the line.
-/

namespace FormDesign.Command

/-- How much a line matters, from the most to the least. -/
inductive Level
  | error
  | warn
  | info
  | debug
  | trace
  deriving DecidableEq

namespace Level

/-- The level as a number that grows as lines matter less. -/
def rank : Level → Nat
  | error => 1
  | warn => 2
  | info => 3
  | debug => 4
  | trace => 5

/-- The name of a level, as wide as the longest. -/
def label : Level → String
  | error => "ERROR"
  | warn => " WARN"
  | info => " INFO"
  | debug => "DEBUG"
  | trace => "TRACE"

end Level

/-- The areas of the program that tell something. -/
inductive Area
  | command
  | compilation
  deriving DecidableEq

/-- The name under which filters know an area. -/
def Area.name : Area → String
  | command => "odk_build"
  | compilation => "xform_spec::compile"

/-- The compilation that a line is told within. -/
structure Span where
  title : String
  languages : Nat
  deriving DecidableEq

namespace Span

/-- The name under which filters know compilations. -/
def name : String := "compile"

/-- The area of compilations. -/
def area : Area := .compilation

/-- The level of compilations. -/
def level : Level := .info

/-- The keys under which a compilation has values. -/
def keys : List String := ["title", "languages"]

/-- A compilation as it stands in front of a line. -/
def shown (span : Span) : String :=
  String.join [name, "\x7btitle=", span.title, " languages=", toString span.languages, "\x7d: "]

/-- The compilation of a form. -/
def ofCompilation (form : Form) (options : Options) : Span :=
  ⟨form.title, options.languages.length⟩

end Span

/-- A log line. -/
structure Line where
  level : Level
  area : Area
  /-- The keys under which the line tells values. -/
  keys : List String
  within : Option Span
  text : String

namespace Line

/-- A form has been read from a file. -/
def read (path : String) (size : Nat) : Line where
  level := .debug
  area := .command
  keys := ["message", "path", "bytes"]
  within := none
  text := s!"read control tree path={path} bytes={size}"

/-- A document has been written to a file. -/
def wrote (path : String) : Line where
  level := .info
  area := .command
  keys := ["message", "path"]
  within := none
  text := s!"wrote xform path={path}"

/-- A control is visited. -/
def visit (span : Span) (v : Control.Visit) : Line where
  level := .trace
  area := .compilation
  keys := ["message", "kind", "name", "path"]
  within := some span
  text := String.join [
    "visiting control kind=", Text.quoted v.kind.tag, " name=", Text.quoted v.name, " path=",
    v.path]

/-- A form has been compiled. -/
def compiled (span : Span) (binds texts : Nat) : Line where
  level := .debug
  area := .compilation
  keys := ["message", "binds", "itext"]
  within := some span
  text := s!"compiled form binds={binds} itext={texts}"

/-- The lines of a compilation that succeeds. -/
def ofCompilation (form : Form) (options : Options) : List Line :=
  let span := Span.ofCompilation form options
  let f := form.fragment id options
  (Control.visitsAll (.top options.instanceRoot) form.controls).map (visit span) ++
    [compiled span f.binds.length (f.translations id options).size]

end Line

end FormDesign.Command
