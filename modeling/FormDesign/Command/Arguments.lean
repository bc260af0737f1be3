import FormDesign.Options

/-!
# Arguments

The arguments that the command line accepts and what they ask for. There are three commands, each
with options of its own; an option takes one value or none. Logging can be asked for before the
command or among its options. Arguments that ask for nothing sensible are refused without a reason.
Requests for help or for the version are left out: they are refused here.
-/

namespace FormDesign.Command

/-- How a document is written. -/
inductive Format
  | xml
  | json
  deriving DecidableEq

/-- A request to compile a form. -/
structure Build where
  form : String
  options : Options
  format : Format
  /-- The file to write; without one the document goes to the standard output. -/
  out : Option String
  /-- Whether a file that exists is overwritten. -/
  force : Bool
  deriving DecidableEq

/-- What is to be done. -/
inductive Request
  | build (b : Build)
  | check (form : String)
  | schema
  deriving DecidableEq

/-- What is to be done, and whether progress is logged. -/
structure Invocation where
  verbose : Bool
  request : Request
  deriving DecidableEq

/-! ## Options -/

/-- How often an option may be given, and whether it takes a value. -/
inductive Arity
  | flag
  | single
  | many
  deriving DecidableEq

/-- An option of a command: its name behind two hyphens. -/
structure Flag where
  name : String
  arity : Arity

/-- The options that are given: their names, and their values, which are empty for flags. -/
abbrev Given := List (String × String)

/-- Splits `name=value` at its first equals sign. -/
def splitValue (chars : List Char) : String × Option String :=
  match chars.span (· ≠ '=') with
  | (name, []) => (String.ofList name, none)
  | (name, _ :: value) => (String.ofList name, some (String.ofList value))

/-- What a single argument is, where an option may stand. -/
inductive Piece
  /-- The end of the options. -/
  | finish
  /-- An option that is complete. -/
  | complete (name value : String)
  /-- An option whose value is the next argument. -/
  | incomplete (name : String)
  /-- Not an option of the command. -/
  | refused

/-- What an argument is. -/
def Piece.ofArgument (flags : List Flag) (arg : String) : Piece :=
  match arg.toList with
  | ['-', '-'] => finish
  | ['-', 'v'] => complete "verbose" ""
  | '-' :: '-' :: chars =>
    let (name, value) := splitValue chars
    match (flags.find? fun flag => flag.name = name).map Flag.arity, value with
    | some .flag, none => complete name ""
    | some .flag, some _ => refused
    | some _, some value => complete name value
    | some _, none => incomplete name
    | none, _ => refused
  | _ => refused

/-- Whether an argument can only be an option. A single hyphen is a value. -/
def looksLikeOption (arg : String) : Bool :=
  match arg.toList with
  | '-' :: _ :: _ => true
  | _ => false

/-- The options that arguments give, or nothing if they are refused. A command takes nothing but
options. -/
def parseGiven? (flags : List Flag) : List String → Option Given
  | [] => some []
  | arg :: args =>
    match Piece.ofArgument flags arg, args with
    | .finish, [] => some []
    | .complete name value, args => ((name, value) :: ·) <$> parseGiven? flags args
    | .incomplete name, value :: args =>
      if looksLikeOption value then none else ((name, value) :: ·) <$> parseGiven? flags args
    | _, _ => none

/-- The options that arguments give, each as often as it may be. -/
def given? (flags : List Flag) (args : List String) : Option Given := do
  let given ← parseGiven? flags args
  let tooOften (flag : Flag) :=
    flag.arity ≠ .many ∧ 1 < (given.filter fun g => g.1 = flag.name).length
  if flags.any tooOften then none else some given

namespace Given

/-- Whether a flag is given. -/
def has (given : Given) (name : String) : Bool :=
  given.any fun g => g.1 = name

/-- The values of an option. -/
def values (given : Given) (name : String) : List String :=
  (given.filter fun g => g.1 = name).map Prod.snd

/-- The value of an option that is given once. -/
def value? (given : Given) (name : String) : Option String :=
  (given.values name).head?

end Given

/-! ## Commands -/

/-- The option to log progress, which every command has. -/
def verboseFlag : Flag := ⟨"verbose", .flag⟩

/-- The options of a compilation. -/
def buildFlags : List Flag := [
  verboseFlag, ⟨"form", .single⟩, ⟨"lang", .many⟩, ⟨"instance-root", .single⟩, ⟨"form-id", .single⟩,
  ⟨"relative-refs", .flag⟩, ⟨"format", .single⟩, ⟨"out", .single⟩, ⟨"force", .flag⟩]

/-- A path, which is not empty. -/
def path? (path : String) : Option String :=
  if path.isEmpty then none else some path

/-- The format with this name. -/
def Format.ofName? : String → Option Format
  | "xml" => some .xml
  | "json" => some .json
  | _ => none

/-- The compilation that options ask for. What is not given stays at its default. -/
def Build.ofGiven? (given : Given) : Option Build := do
  let languages := given.values "lang"
  return {
    form := ← path? (← given.value? "form")
    options := {
      languages := if languages = [] then Options.default.languages else languages
      instanceRoot := (given.value? "instance-root").getD Options.default.instanceRoot
      formId := given.value? "form-id"
      bodyRefs := if given.has "relative-refs" then .relative else .absolute }
    format := ← match given.value? "format" with
      | some name => Format.ofName? name
      | none => some .xml
    out := ← match given.value? "out" with
      | some out => some <$> path? out
      | none => some none
    force := given.has "force" }

/-- What the arguments of a command ask for. -/
def Invocation.ofCommand? (command : String) (args : List String) : Option Invocation := do
  match command with
  | "build" =>
    let given ← given? buildFlags args
    return ⟨given.has "verbose", .build (← Build.ofGiven? given)⟩
  | "check" =>
    let given ← given? [verboseFlag, ⟨"form", .single⟩] args
    return ⟨given.has "verbose", .check (← path? (← given.value? "form"))⟩
  | "schema" =>
    let given ← given? [verboseFlag] args
    return ⟨given.has "verbose", .schema⟩
  | _ => none

/-- What arguments ask for. Left out, and so refused, are the requests for help (`--help` or `-h`
anywhere among the arguments, and the command `help`) and for the version (`--version` or `-V`
before the command). They are answered with words alone, and no form is touched. -/
def Invocation.ofArguments? : List String → Option Invocation
  | [] => none
  | arg :: args =>
    if arg = "-v" ∨ arg = "--verbose" then
      match args with
      | command :: args => do return { ← ofCommand? command args with verbose := true }
      | [] => none
    else ofCommand? arg args

end FormDesign.Command
