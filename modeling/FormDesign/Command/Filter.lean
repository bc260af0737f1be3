import FormDesign.Command.Log
import FormDesign.Entries
import FormDesign.Text.Blank
import FormDesign.Text.Name
import FormDesign.Text.Segments

/-!
# Log filters

Which log lines are shown. A filter is a list of directives, written with commas between them. A
directive aims at lines by the beginning of their area, by the compilation they are told within, and
by the keys they tell, and gives the least level that is shown of what it aims at: `info`,
`area=debug`, `area[compile]=trace`, `[\x7bpath\x7d]=off`.

A directive that names a compilation or asks for a value speaks of everything told within the
compilations it fits. Of the other directives the most specific one that fits decides.

* `Filter.ofText?` reads a filter, `Filter.lineShown` shows a line.
-/

namespace FormDesign.Command

/-! ## Thresholds -/

/-- The least level that is shown, or nothing. -/
abbrev Threshold := Option Level

namespace Threshold

/-- The thresholds in the order in which they are numbered. -/
def all : List Threshold :=
  [none, some .error, some .warn, some .info, some .debug, some .trace]

/-- The number that digits stand for; a plus sign may precede them. -/
def number? (word : String) : Option Nat :=
  let digits := match word.toList with
    | '+' :: digits => digits
    | digits => digits
  if digits ≠ [] ∧ digits.all Char.isDigit then some (Nat.ofDigitChars 10 digits 0) else none

/-- The threshold that a word names, or a number. -/
def ofWord? (word : String) : Option Threshold :=
  match number? word with
  | some n => all[n]?
  | none =>
    match String.ofList (word.toList.map Char.toLower) with
    | "off" => some none
    | "error" => some (some .error)
    | "warn" => some (some .warn)
    | "info" => some (some .info)
    | "debug" => some (some .debug)
    | "trace" => some (some .trace)
    | _ => none

/-- Whether lines of a level are shown. -/
def shows (threshold : Threshold) (level : Level) : Bool :=
  match threshold with
  | some least => level.rank ≤ least.rank
  | none => false

end Threshold

/-! ## Directives -/

/-- A key that must be told, and the value it must have if one is asked for. -/
structure Demand where
  key : String
  value : Option String
  deriving DecidableEq

/-- What a directive aims at. -/
structure Aim where
  /-- How the name of the area begins. -/
  area : Option String
  /-- The name of the compilation. -/
  span : Option String
  demands : List Demand
  deriving DecidableEq

namespace Aim

/-- Everything. -/
def everything : Aim := ⟨none, none, []⟩

/-- Whether the aim speaks of compilations by their name or their keys. -/
def isDynamic (aim : Aim) : Bool :=
  aim.span.isSome || !aim.demands.isEmpty

/-- Whether the aim speaks of single lines: it names no compilation and asks for no value. -/
def isStatic (aim : Aim) : Bool :=
  aim.span.isNone && aim.demands.all fun demand => demand.value.isNone

/-- The keys that must be told. -/
def keys (aim : Aim) : List String :=
  aim.demands.map Demand.key

/-- Whether an area is aimed at. -/
def fitsArea (aim : Aim) (area : Area) : Bool :=
  match aim.area with
  | some start => start.toList.isPrefixOf area.name.toList
  | none => true

/-- Whether a line is aimed at, as far as its area and its keys go. -/
def fitsLine (aim : Aim) (line : Line) : Bool :=
  aim.fitsArea line.area && aim.keys.all line.keys.contains

/-- Whether compilations are aimed at, whatever their values are. -/
def fitsSpans (aim : Aim) : Bool :=
  aim.fitsArea Span.area && (aim.span.all fun name => name = Span.name) &&
    aim.keys.all Span.keys.contains

/-- Whether `aim` is at least as specific as `other`: by the length of its area, then by the number
of its keys, and among equals by the order of texts. -/
def atLeastAsSpecific (aim other : Aim) : Bool :=
  let size (a : Aim) : Nat := match a.area with
    | some start => start.utf8ByteSize + 1
    | none => 0
  if size aim ≠ size other then size other < size aim
  else if aim.keys.length ≠ other.keys.length then other.keys.length < aim.keys.length
  else if aim.area ≠ other.area then other.area.getD "" < aim.area.getD ""
  else ¬ aim.keys < other.keys

end Aim

/-! ## Reading directives -/

/-- Whether a directive may begin with `c`, apart from a bracket. -/
def isDirectiveStart (c : Char) : Bool :=
  Text.isNameStart c || c.isDigit || c = '-' || c = ':'

/-- The demand that a text in braces makes. -/
def Demand.ofChars (cs : List Char) : Demand :=
  match (Text.segmentsOf '=' cs).map String.ofList with
  | key :: value :: _ => ⟨key, some value⟩
  | [key] => ⟨key, none⟩
  | [] => ⟨"", none⟩

/-- The threshold behind what a directive aims at: everything if none is written. -/
def thresholdOfChars? : List Char → Option Threshold
  | [] | ['='] => some (some .trace)
  | '=' :: level => Threshold.ofWord? (String.ofList level)
  | _ => none

/-- The directive whose area has been read and whose bracket has been passed. -/
def bracketDirective? (area : Option String) (cs : List Char) : Option (Aim × Threshold) :=
  let name := String.ofList (cs.takeWhile fun c => c ≠ ']' && c ≠ '\x7b')
  match cs.dropWhile fun c => c ≠ ']' && c ≠ '\x7b' with
  | ']' :: rest => return (⟨area, some name, []⟩, ← thresholdOfChars? rest)
  | '\x7b' :: rest =>
    let inside := rest.takeWhile (· ≠ '\x7d')
    match rest.dropWhile (· ≠ '\x7d') with
    | '\x7d' :: ']' :: rest =>
      if inside = [] then none
      else
        let span := if name = "" then none else some name
        return (⟨area, span, [.ofChars inside]⟩, ← thresholdOfChars? rest)
    | _ => none
  | _ => none

/-- The directive that begins with a word: a level, or an area and what follows it. -/
def wordDirective? (cs : List Char) : Option (Aim × Threshold) :=
  let word := String.ofList (cs.takeWhile fun c => c ≠ '=' && c ≠ '[')
  match cs.dropWhile fun c => c ≠ '=' && c ≠ '[' with
  | [] =>
    match Threshold.ofWord? word with
    | some threshold => some (.everything, threshold)
    | none => some (⟨some word, none, []⟩, some .trace)
  | '[' :: rest => bracketDirective? (some word) rest
  | rest => return (⟨some word, none, []⟩, ← thresholdOfChars? rest)

/-- The directive that a text is. White space around it belongs to it: it spoils a level that is
written, and otherwise makes the directive aim at an area that there is not. -/
def directiveOfText? (text : String) : Option (Aim × Threshold) :=
  let cs := text.toList
  let inner := ((cs.dropWhile Text.isSpace).reverse.dropWhile Text.isSpace).reverse
  let directive? := match inner with
    | '[' :: rest => bracketDirective? none rest
    | c :: _ => if isDirectiveStart c then wordDirective? inner else none
    | [] => none
  if inner = cs then directive?
  else if '=' ∈ inner then none
  else directive?.map fun _ => (⟨some text, none, []⟩, some .trace)

/-! ## Filters -/

/-- Directives; of two with the same aim the last one counts. -/
structure Filter where
  directives : List (Aim × Threshold)

namespace Filter

/-- The filter with one more directive. -/
def add (filter : Filter) (directive : Aim × Threshold) : Filter :=
  ⟨setEntry directive.1 directive.2 filter.directives⟩

/-- The filter that shows everything from one level on. -/
def ofLevel (level : Level) : Filter :=
  ⟨[(.everything, some level)]⟩

/-- The filter that a text is. Without a directive only errors are shown. -/
def ofText? (text : String) : Option Filter := do
  match (Text.segments ',' text).filter fun segment => segment ≠ "" with
  | [] => return ofLevel .error
  | segments => return (← segments.mapM directiveOfText?).foldl add ⟨[]⟩

/-- The filter of a run: a text from outside counts more than the wish for progress, if it is a
filter. -/
def ofSettings (text : Option String) (verbose : Bool) : Filter :=
  (text.bind ofText?).getD (ofLevel (if verbose then .debug else .warn))

/-- The threshold of the most specific of the directives that fit. -/
def decide? (directives : List (Aim × Threshold)) (fits : Aim → Bool) : Threshold :=
  let best := directives.foldl
    (fun best directive =>
      if !(directive.1.isStatic && fits directive.1) then best
      else match best with
        | some b => if b.1.atLeastAsSpecific directive.1 then best else some directive
        | none => some directive)
    none
  best.bind Prod.snd

/-- Whether a word occurs in a text. -/
def occursIn (word : List Char) : List Char → Bool
  | [] => word.isEmpty
  | c :: cs => word.isPrefixOf (c :: cs) || occursIn word cs

/-- Whether a demand is met by a compilation. A number of languages is compared as a number; a title
must have the value at its end and nowhere before. -/
def meets (span : Span) (demand : Demand) : Bool :=
  match demand.value with
  | none => true
  | some value =>
    if demand.key = "languages" then Threshold.number? value = some span.languages
    else if demand.key = "title" then
      let title := span.title.toList
      (Threshold.number? value).isNone && value.toList.isSuffixOf title &&
        !occursIn value.toList title.dropLast
    else false

/-- The directives that speak of compilations. -/
def aboutSpans (filter : Filter) : List (Aim × Threshold) :=
  filter.directives.filter fun directive => directive.1.isDynamic && directive.1.fitsSpans

/-- Whether lines of a level are shown because of the compilation that they are told within. -/
def showsWithin (filter : Filter) (span : Span) (level : Level) : Bool :=
  filter.aboutSpans.any fun directive =>
    directive.1.demands.all (meets span) && directive.2.shows level

/-- Whether the compilations that lines are told within are known. -/
def knowsSpans (filter : Filter) : Bool :=
  !filter.aboutSpans.isEmpty ||
    (decide? filter.directives fun aim => aim.fitsArea Span.area).shows Span.level

/-- Whether a line is shown. -/
def shows (filter : Filter) (line : Line) : Bool :=
  (line.within.any fun span => filter.showsWithin span line.level) ||
    (decide? filter.directives fun aim => aim.fitsLine line).shows line.level

/-- A line as it is shown. -/
def lineShown (filter : Filter) (line : Line) : String :=
  let front := match line.within with
    | some span => if filter.knowsSpans then span.shown else ""
    | none => ""
  String.join [line.level.label, " ", front, line.text]

end Filter

end FormDesign.Command
