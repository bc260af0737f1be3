import FormDesign.Command.Arguments
import Mathlib.Data.List.TakeDrop

/-!
# Arguments that give values

A value may be given to an option behind an equals sign, whatever the value is. So every combination
of languages, root, identifier and way to refer can be asked for, and what is asked for is what the
compilation is told: values that are not given stay at their defaults.

## Main definitions

* `Settings`: values for the options of a compilation, each of which may be missing;
* `Settings.arguments`, `Settings.options`: how they are given, and what they ask for.

## Main results

* `Piece.ofArgument_valueArgument`: an option with its value behind an equals sign is complete;
* `Invocation.ofArguments?_arguments`: a build with given settings is accepted as what they ask for.
-/

namespace FormDesign.Command

/-- An option with its value behind an equals sign. -/
def valueArgument (name value : String) : String :=
  "--" ++ name ++ "=" ++ value

/-- A text is split at its first equals sign. -/
theorem splitValue_append {name : String} (h : '=' ∉ name.toList) (value : String) :
    splitValue (name.toList ++ '=' :: value.toList) = (name, some value) := by
  have hName : ∀ c ∈ name.toList, (decide (c ≠ '=')) = true := fun c hc => by
    rw [decide_eq_true_eq]
    rintro rfl
    exact h hc
  rw [splitValue, List.span_eq_takeWhile_dropWhile, List.takeWhile_append_of_pos hName,
    List.dropWhile_append_of_pos hName]
  simp

/-- An option that takes a value is complete with one behind an equals sign, whatever it is. -/
theorem Piece.ofArgument_valueArgument {flags : List Flag} {name : String} {arity : Arity}
    (hName : '=' ∉ name.toList)
    (hFlag : (flags.find? fun flag => flag.name = name).map Flag.arity = some arity)
    (hArity : arity ≠ .flag) (value : String) :
    Piece.ofArgument flags (valueArgument name value) = .complete name value := by
  have hChars : (valueArgument name value).toList =
      '-' :: '-' :: (name.toList ++ '=' :: value.toList) := by
    simp [valueArgument, String.toList_append]
  have hSplit := splitValue_append hName value
  obtain ⟨c, cs, hCons⟩ : ∃ c cs, name.toList ++ '=' :: value.toList = c :: cs :=
    List.exists_cons_of_ne_nil (List.append_ne_nil_of_right_ne_nil _ (List.cons_ne_nil _ _))
  rw [hCons] at hChars hSplit
  rw [Piece.ofArgument, hChars]
  cases arity with
  | flag => exact absurd rfl hArity
  | single | many => simp [hSplit, hFlag]

/-! ## Options that are given -/

namespace Given

theorem values_map_pair (given name : String) (values : List String) :
    Given.values (values.map ((given, ·))) name = if given = name then values else [] := by
  have hPairs : (values.map ((given, ·))).filter (fun g => g.1 = name) =
      if given = name then values.map ((given, ·)) else [] := by
    split_ifs with h
    · exact List.filter_eq_self.2 <| List.forall_mem_map.2 fun _ _ => decide_eq_true h
    · exact List.filter_eq_nil_iff.2 <| List.forall_mem_map.2 fun _ _ => by simpa using h
  rw [Given.values, hPairs]
  split_ifs
  · rw [List.map_map]
    exact List.map_id _
  · rfl

theorem values_append (first later : Given) (name : String) :
    Given.values (first ++ later) name = first.values name ++ later.values name := by
  rw [Given.values, List.filter_append, List.map_append]
  rfl

theorem has_iff (given : Given) (name : String) :
    given.has name = true ↔ given.values name ≠ [] := by
  simp [Given.has, Given.values, List.filter_eq_nil_iff]

end Given

/-! ## Settings -/

/-- Values for the options of a compilation. What is missing is not given. -/
structure Settings where
  languages : List String
  instanceRoot : Option String
  formId : Option String
  relativeRefs : Bool

namespace Settings

variable (settings : Settings) (path : String)

/-- The options that are given. -/
def given : Given :=
  ("form", path) :: (settings.languages.map (("lang", ·)) ++
    (settings.instanceRoot.toList.map (("instance-root", ·)) ++
      (settings.formId.toList.map (("form-id", ·)) ++
        (if settings.relativeRefs then [""] else []).map (("relative-refs", ·)))))

/-- The arguments of a build, with each value behind an equals sign. -/
def arguments : List String :=
  valueArgument "form" path :: (settings.languages.map (valueArgument "lang") ++
    (settings.instanceRoot.toList.map (valueArgument "instance-root") ++
      (settings.formId.toList.map (valueArgument "form-id") ++
        if settings.relativeRefs then ["--relative-refs"] else [])))

/-- The options that are asked for: what is given, and the defaults for what is not. -/
def options : Options where
  languages := if settings.languages = [] then ["en"] else settings.languages
  instanceRoot := settings.instanceRoot.getD "data"
  formId := settings.formId
  bodyRefs := if settings.relativeRefs then .relative else .absolute

end Settings

/-! ## Reading arguments -/

/-- An argument that is complete is an option, before what the others give. -/
theorem parseGiven?_of_complete {flags : List Flag} {arg name value : String}
    (h : Piece.ofArgument flags arg = .complete name value) (args : List String) :
    parseGiven? flags (arg :: args) = (parseGiven? flags args).map ((name, value) :: ·) := by
  conv_lhs => unfold parseGiven?
  rw [h]
  rfl

/-- Arguments that are complete give an option each. -/
theorem parseGiven?_map {flags : List Flag} {argument : String → String} {name : String}
    (h : ∀ value, Piece.ofArgument flags (argument value) = .complete name value)
    (values args : List String) :
    parseGiven? flags (values.map argument ++ args) =
      (parseGiven? flags args).map (values.map ((name, ·)) ++ ·) := by
  induction values with
  | nil => exact Option.map_id'.symm
  | cons value values ih =>
    rw [List.map_cons, List.cons_append, parseGiven?_of_complete (h value), ih, Option.map_map]
    rfl

namespace Settings

variable (settings : Settings) (path : String)

/-- The arguments of a build give its options, in the same order. -/
theorem parseGiven?_arguments :
    parseGiven? buildFlags (settings.arguments path) = some (settings.given path) := by
  have hForm : Piece.ofArgument buildFlags (valueArgument "form" path) =
      .complete "form" path :=
    Piece.ofArgument_valueArgument (by decide) rfl (by decide) path
  have hLanguage : ∀ value, Piece.ofArgument buildFlags (valueArgument "lang" value) =
      .complete "lang" value :=
    Piece.ofArgument_valueArgument (by decide) rfl (by decide)
  have hRoot : ∀ value, Piece.ofArgument buildFlags (valueArgument "instance-root" value) =
      .complete "instance-root" value :=
    Piece.ofArgument_valueArgument (by decide) rfl (by decide)
  have hId : ∀ value, Piece.ofArgument buildFlags (valueArgument "form-id" value) =
      .complete "form-id" value :=
    Piece.ofArgument_valueArgument (by decide) rfl (by decide)
  have hRefs : parseGiven? buildFlags (if settings.relativeRefs then ["--relative-refs"] else []) =
      some ((if settings.relativeRefs then [""] else []).map (("relative-refs", ·))) := by
    cases settings.relativeRefs <;> rfl
  rw [arguments, parseGiven?_of_complete hForm, parseGiven?_map hLanguage, parseGiven?_map hRoot,
    parseGiven?_map hId, hRefs]
  rfl

/-- The values that are given to an option. -/
theorem values_given (name : String) :
    (settings.given path).values name =
      (if "form" = name then [path] else []) ++
        ((if "lang" = name then settings.languages else []) ++
          ((if "instance-root" = name then settings.instanceRoot.toList else []) ++
            ((if "form-id" = name then settings.formId.toList else []) ++
              if "relative-refs" = name then if settings.relativeRefs then [""] else []
              else []))) := by
  have hForm : ∀ given : Given, ("form", path) :: given = [path].map (("form", ·)) ++ given :=
    fun _ => rfl
  rw [given, hForm]
  simp only [Given.values_append, Given.values_map_pair]

/-- No option is given more often than it may be. -/
theorem given?_arguments :
    given? buildFlags (settings.arguments path) = some (settings.given path) := by
  have hOften : ∀ flag ∈ buildFlags, ¬ (flag.arity ≠ .many ∧
      1 < ((settings.given path).values flag.name).length) := by
    simp only [values_given]
    cases settings.instanceRoot <;> cases settings.formId <;> cases settings.relativeRefs <;>
      simp [buildFlags, verboseFlag]
  rw [given?, parseGiven?_arguments]
  simp only [Option.bind_eq_bind, Option.bind_some, List.any_eq_true]
  rw [if_neg]
  rintro ⟨flag, hFlag, hTooOften⟩
  refine hOften flag hFlag ?_
  simpa [Given.values] using hTooOften

/-- What is asked for is what is given. -/
theorem ofGiven?_given (h : path ≠ "") :
    Build.ofGiven? (settings.given path) = some {
      form := path
      options := settings.options
      format := .xml
      out := none
      force := false } := by
  have hPath : path? path = some path := by simp [path?, h]
  have hForm : (settings.given path).value? "form" = some path := by
    simp [Given.value?, values_given]
  have hLanguages : (settings.given path).values "lang" = settings.languages := by
    simp [values_given]
  have hRoot : (settings.given path).value? "instance-root" = settings.instanceRoot := by
    simp [Given.value?, values_given]
  have hId : (settings.given path).value? "form-id" = settings.formId := by
    simp [Given.value?, values_given]
  have hRefs : (settings.given path).has "relative-refs" = settings.relativeRefs := by
    rw [Bool.eq_iff_iff, Given.has_iff, values_given]
    simp
  have hFormat : (settings.given path).value? "format" = none := by
    simp [Given.value?, values_given]
  have hOut : (settings.given path).value? "out" = none := by
    simp [Given.value?, values_given]
  have hForce : (settings.given path).has "force" = false := by
    rw [Bool.eq_false_iff, Ne, Given.has_iff, values_given]
    simp
  rw [Build.ofGiven?, hForm, hLanguages, hRoot, hId, hRefs, hFormat, hOut, hForce]
  simp [hPath, options, Options.default]

end Settings

/-- Every combination of settings can be asked for, and is what the compilation is told. -/
theorem Invocation.ofArguments?_arguments (settings : Settings) {path : String} (h : path ≠ "") :
    ofArguments? ("build" :: settings.arguments path) = some {
      verbose := false
      request := .build {
        form := path
        options := settings.options
        format := .xml
        out := none
        force := false } } := by
  have hVerbose : (settings.given path).has "verbose" = false := by
    rw [Bool.eq_false_iff, Ne, Given.has_iff, Settings.values_given]
    simp
  have hCommand : ofArguments? ("build" :: settings.arguments path) =
      ofCommand? "build" (settings.arguments path) := rfl
  rw [hCommand, ofCommand?, settings.given?_arguments]
  simp [settings.ofGiven?_given path h, hVerbose]

end FormDesign.Command
