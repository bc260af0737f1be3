import FormDesign.Command.Arguments
import FormDesign.Command.Filter
import FormDesign.Command.Storage
import FormDesign.Control.Read
import FormDesign.Failure
import FormDesign.Schema
import FormDesign.Xml.Codec

/-!
# The command line

What the commands do with a place that keeps files: a form is read, checked or compiled, and its
document is printed or written. A file is written last, when nothing can fail any more but the
writing, and one that exists only if it may be overwritten.

The standard output and the error output are taken to accept what is written to them. Not described
is a run whose output cannot be written: it ends without a report, though its file may be written.
-/

namespace FormDesign.Command

open Json (Value)

/-! ## Reports -/

/-- What a run leaves behind besides files, when all its output can be written. -/
structure Report where
  code : Nat
  /-- What is printed to the standard output. -/
  output : String
  log : List Line
  /-- Why the run fails, if it does. -/
  failure : Option String

namespace Report

/-- The report of a run that succeeds. -/
def success (log : List Line) (output : String) : Report :=
  ⟨0, output, log, none⟩

/-- The report of a run that fails. -/
def fail (log : List Line) (reason : String) : Report :=
  ⟨1, "", log, some reason⟩

/-- The report of a run whose arguments are refused. -/
def refusal : Report :=
  ⟨2, "", [], none⟩

/-- The lines on the error output: the log as far as it is shown, and then the failure. -/
def errorLines (report : Report) (filter : Filter) : List String :=
  (report.log.filter filter.shows).map filter.lineShown ++
    (report.failure.map fun reason => s!"error: {reason}").toList

end Report

/-! ## Commands -/

/-- The document of a compilation in its format. -/
def Format.text (format : Format) (node : Xml.Node) : String :=
  match format with
  | .xml => node.render
  | .json => node.toValue.pretty ++ "\n"

/-- The form that a text says, and what a build makes of it: log lines and the text to print or
write. -/
def Build.textOf (b : Build) (content : String) : Except Failure (List Line × String) := do
  let form ← (Form.ofJson content).mapError .form
  let node ← (form.compile b.options).mapError .refused
  return (Line.ofCompilation form b.options, b.format.text node)

/-- Checks the form that a text says. -/
def checkText (content : String) : Except Failure Unit := do
  let form ← (Form.ofJson content).mapError .form
  form.check.mapError .refused

/-- The schema of forms as it is printed. -/
def schemaText : String :=
  Schema.form.pretty ++ "\n"

variable {m : Type → Type} [Monad m] [Storage m]

/-- The text of a file, or why it cannot be read. -/
def readFile (path : String) : m (Except String String) := do
  match ← Storage.read path with
  | .error fault => return .error s!"failed to read {path}: {fault.message}"
  | .ok bytes =>
    match String.fromUTF8? bytes with
    | some text => return .ok text
    | none => return .error s!"failed to read {path}: {StorageFault.encoding.message}"

/-- Writes a document to a file, or says why it is not written. -/
def writeFile (path : String) (force : Bool) (text : String) : m (Except String Unit) := do
  if !force then
    if ← Storage.present path then
      return .error s!"{path} already exists; rerun with --force to overwrite"
  match ← Storage.write path text.toUTF8 with
  | .ok () => return .ok ()
  | .error fault => return .error fault.message

/-- Compiles a form from a file. That the document has been written is told on the standard output
after it has been written. -/
def runBuild (b : Build) : m Report := do
  match ← readFile b.form with
  | .error reason => return .fail [] reason
  | .ok content =>
    let log := [Line.read b.form content.utf8ByteSize]
    match b.textOf content with
    | .error failure => return .fail log failure.message
    | .ok (lines, text) =>
      let log := log ++ lines
      -- The document is complete here; no file has been touched.
      match b.out with
      | none => return .success log text
      | some path =>
        match ← writeFile path b.force text with
        | .error reason => return .fail log reason
        | .ok () => return .success (log ++ [.wrote path]) s!"Wrote {path}\n"

/-- Checks a form from a file. -/
def runCheck (path : String) : m Report := do
  match ← readFile path with
  | .error reason => return .fail [] reason
  | .ok content =>
    let log := [Line.read path content.utf8ByteSize]
    match checkText content with
    | .error failure => return .fail log failure.message
    | .ok () => return .success log "ok\n"

/-- Does what is asked for. -/
def Request.run : Request → m Report
  | build b => runBuild b
  | check form => runCheck form
  | schema => return .success [] schemaText

/-- A run with these arguments: whether progress is to be logged, and the report. -/
def run (args : List String) : m (Bool × Report) := do
  match Invocation.ofArguments? args with
  | none => return (false, .refusal)
  | some invocation => return (invocation.verbose, ← invocation.request.run)

end FormDesign.Command
