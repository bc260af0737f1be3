import FormDesign.Proofs.Command.Arguments

/-!
# Arguments without their output

The same run can be asked for without a file to write: `--out` with its path, and `--force`, are
left out of the arguments. What remains is accepted whenever the whole is, and asks for the same
build with the document on the standard output.

## Main definitions

* `withoutOutput`: the arguments of a run without `--out` and `--force`;
* `Gives`: the options that arguments give, one after another;
* `outputOf?`: the file that arguments name for the document, and whether it may be overwritten.

## Main results

* `Piece.ofArgument_eq_complete`, `Piece.ofArgument_eq_incomplete`: how an option is written;
* `parseGiven?_eq_some_iff`: arguments are read as the options that they give;
* `dropOutput_cons_of_complete`, `dropOutput_cons_of_incomplete`: what is left out of the arguments
  with each kind of option;
* `parseGiven?_dropOutput`: what remains gives the other options;
* `Invocation.ofArguments?_withoutOutput`: what remains asks for the same build to the output;
* `mem_of_outputOf?_force`: a file may be overwritten only where `--force` is among the arguments.
-/

namespace FormDesign.Command

/-- Whether an argument names the file to write, with the path behind an equals sign. -/
def namesOutput (arg : String) : Bool :=
  "--out=".toList.isPrefixOf arg.toList

/-- The options of a build without `--out`, the path behind it, and `--force`. -/
def dropOutput : List String → List String
  | [] => []
  | arg :: args =>
    if arg = "--force" ∨ namesOutput arg then dropOutput args
    else if arg = "--out" then
      match args with
      | [] => []
      | _ :: args => dropOutput args
    else arg :: dropOutput args

/-- The arguments of a run without `--out`, the path behind it, and `--force`. -/
def withoutOutput : List String → List String
  | [] => []
  | arg :: args =>
    if arg = "-v" ∨ arg = "--verbose" then
      match args with
      | command :: args => arg :: command :: dropOutput args
      | [] => [arg]
    else arg :: dropOutput args

/-- The file that arguments name for the document of a build, and whether it may be overwritten. A
check, a schema, a build to the standard output and refused arguments name none. -/
def outputOf? (args : List String) : Option (String × Bool) :=
  match Invocation.ofArguments? args with
  | some ⟨_, .build b⟩ => b.out.map ((·, b.force))
  | _ => none

/-! ## How options are written -/

/-- What stands before and behind the first equals sign makes up the text. -/
theorem eq_of_splitValue {chars : List Char} {name : String} {value : Option String}
    (h : splitValue chars = (name, value)) :
    chars = name.toList ++ value.elim [] fun v => '=' :: v.toList := by
  rw [splitValue, List.span_eq_takeWhile_dropWhile] at h
  rw [← List.takeWhile_append_dropWhile (p := fun c => decide (c ≠ '=')) (l := chars)]
  cases hRest : chars.dropWhile fun c => decide (c ≠ '=') with
  | nil =>
    rw [hRest] at h
    obtain ⟨rfl, rfl⟩ := Prod.mk.inj h
    rw [String.toList_ofList]
    rfl
  | cons sign rest =>
    rw [hRest] at h
    obtain ⟨rfl, rfl⟩ := Prod.mk.inj h
    have hSign : sign = '=' := by
      have hHead := List.head?_dropWhile_not (fun c => decide (c ≠ '=')) chars
      rw [hRest] at hHead
      simpa using hHead
    rw [String.toList_ofList, hSign, Option.elim, String.toList_ofList]

namespace Piece

variable {flags : List Flag} {arg name value : String}

/-- An option that is complete is `-v`, a flag, or has its value behind an equals sign. -/
theorem ofArgument_eq_complete (h : ofArgument flags arg = .complete name value) :
    name = "verbose" ∨ arg = "--" ++ name ∨ arg = valueArgument name value ∧
      (flags.find? fun flag => flag.name = name).map Flag.arity ≠ some .flag := by
  unfold ofArgument at h
  split at h
  next => cases h
  next => exact .inl (Piece.complete.inj h).1.symm
  next chars _ hArg =>
    refine .inr ?_
    rcases hSplit : splitValue chars with ⟨word, given⟩
    have hChars := eq_of_splitValue hSplit
    simp only [hSplit] at h
    split at h <;> cases h
    · refine .inl (String.toList_inj.1 ?_)
      rw [hArg, hChars, String.toList_append]
      simp
    · next hArity hFlag =>
      refine .inr ⟨String.toList_inj.1 ?_, fun hIs => ?_⟩
      case refine_2 => exact hArity (Option.some.inj (hFlag.symm.trans hIs))
      rw [hArg, hChars]
      simp [valueArgument]
  next => cases h

/-- An option whose value follows is its name behind two hyphens. -/
theorem ofArgument_eq_incomplete (h : ofArgument flags arg = .incomplete name) :
    arg = "--" ++ name := by
  unfold ofArgument at h
  split at h
  next => cases h
  next => cases h
  next chars _ hArg =>
    rcases hSplit : splitValue chars with ⟨word, given⟩
    have hChars := eq_of_splitValue hSplit
    simp only [hSplit] at h
    split at h <;> cases h
    refine String.toList_inj.1 ?_
    rw [hArg, hChars, String.toList_append]
    simp
  next => cases h

end Piece

/-! ## What arguments give -/

/-- Arguments give options: each option is complete or has its value behind it, and nothing stands
behind the end of the options. -/
inductive Gives (flags : List Flag) : List String → Given → Prop
  | nil : Gives flags [] []
  | finish {arg : String} (h : Piece.ofArgument flags arg = .finish) : Gives flags [arg] []
  | complete {arg name value : String} {args : List String} {given : Given}
      (h : Piece.ofArgument flags arg = .complete name value) (hRest : Gives flags args given) :
      Gives flags (arg :: args) ((name, value) :: given)
  | incomplete {arg name value : String} {args : List String} {given : Given}
      (h : Piece.ofArgument flags arg = .incomplete name) (hValue : looksLikeOption value = false)
      (hRest : Gives flags args given) :
      Gives flags (arg :: value :: args) ((name, value) :: given)

section

variable {flags : List Flag} {arg name value : String} {args : List String} {given : Given}

/-- An option whose value follows gives the value, unless it looks like an option. -/
theorem parseGiven?_of_incomplete (h : Piece.ofArgument flags arg = .incomplete name)
    (args : List String) : parseGiven? flags (arg :: value :: args) =
      if looksLikeOption value then none
      else (parseGiven? flags args).map ((name, value) :: ·) := by
  conv_lhs => unfold parseGiven?
  rw [h]
  rfl

/-- What arguments are read as is what they give. -/
theorem gives_of_parseGiven? (h : parseGiven? flags args = some given) :
    Gives flags args given := by
  -- the cases are those of the reader, which takes one argument or two
  induction args using parseGiven?.induct flags generalizing given with
  | case1 =>
    obtain rfl := Option.some.inj h
    exact .nil
  | case2 arg hPiece =>
    have hParse : parseGiven? flags [arg] = some [] := by
      unfold parseGiven?
      rw [hPiece]
    obtain rfl := Option.some.inj (hParse.symm.trans h)
    exact .finish hPiece
  | case3 arg name value args hPiece ih =>
    rw [parseGiven?_of_complete hPiece] at h
    obtain ⟨rest, hRest, rfl⟩ := Option.map_eq_some_iff.1 h
    exact .complete hPiece (ih hRest)
  | case4 arg name value args hPiece hOption =>
    rw [parseGiven?_of_incomplete hPiece, if_pos hOption] at h
    cases h
  | case5 arg name value args hPiece hOption ih =>
    rw [parseGiven?_of_incomplete hPiece, if_neg hOption] at h
    obtain ⟨rest, hRest, rfl⟩ := Option.map_eq_some_iff.1 h
    exact .incomplete hPiece (Bool.eq_false_iff.2 hOption) (ih hRest)
  | case6 arg args hComplete hFinish hIncomplete =>
    unfold parseGiven? at h
    split at h
    next hPiece => exact (hFinish hPiece rfl).elim
    next hPiece => exact (hComplete _ _ hPiece).elim
    next hPiece => exact (hIncomplete _ _ _ hPiece rfl).elim
    next => cases h

/-- Arguments are read as options exactly when they give them. -/
theorem parseGiven?_eq_some_iff :
    parseGiven? flags args = some given ↔ Gives flags args given := by
  refine ⟨gives_of_parseGiven?, fun h => ?_⟩
  induction h with
  | nil => rfl
  | finish h =>
    unfold parseGiven?
    rw [h]
  | complete h hRest ih =>
    rw [parseGiven?_of_complete h, ih]
    rfl
  | incomplete h hValue hRest ih =>
    rw [parseGiven?_of_incomplete h, if_neg (Bool.eq_false_iff.1 hValue), ih]
    rfl

end

/-! ## Reading the arguments that remain -/

section

variable {arg name value : String} {args : List String}

/-- An argument with the file to write behind an equals sign is complete. -/
theorem exists_ofArgument_of_namesOutput (h : namesOutput arg = true) :
    ∃ path, Piece.ofArgument buildFlags arg = .complete "out" path := by
  obtain ⟨rest, hRest⟩ := List.isPrefixOf_iff_prefix.1 h
  have hArg : arg = valueArgument "out" (String.ofList rest) :=
    String.toList_inj.1 (hRest.symm.trans (by simp [valueArgument]))
  rw [hArg]
  exact ⟨_, Piece.ofArgument_valueArgument (by decide) rfl (by decide) _⟩

theorem namesOutput_valueArgument (path : String) : namesOutput (valueArgument "out" path) = true :=
  List.isPrefixOf_iff_prefix.2 ⟨path.toList, by simp [valueArgument]⟩

/-- The options that are not about the file to write. -/
def Given.withoutOutput (given : Given) : Given :=
  given.filter fun g => g.1 ≠ "out" ∧ g.1 ≠ "force"

theorem Given.withoutOutput_cons (name value : String) (given : Given) :
    Given.withoutOutput ((name, value) :: given) =
      if name = "out" ∨ name = "force" then given.withoutOutput
      else (name, value) :: given.withoutOutput := by
  rw [withoutOutput, List.filter_cons]
  by_cases hOut : name = "out" <;> by_cases hForce : name = "force" <;>
    simp [hOut, hForce, withoutOutput]

/-- An argument that is left out on its own is complete, and is about the file to write. -/
theorem dropped_iff (h : Piece.ofArgument buildFlags arg = .complete name value) :
    (arg = "--force" ∨ namesOutput arg = true) ↔ name = "out" ∨ name = "force" := by
  constructor
  · rintro (rfl | hNames)
    · exact .inr (Piece.complete.inj h).1.symm
    · obtain ⟨path, hPath⟩ := exists_ofArgument_of_namesOutput hNames
      exact .inl (Piece.complete.inj (h.symm.trans hPath)).1
  · intro hName
    have hWritten := (Piece.ofArgument_eq_complete h).resolve_left fun hVerbose => by
      subst hVerbose
      exact absurd hName (by decide)
    obtain rfl | rfl := hName
    · obtain rfl | ⟨rfl, -⟩ := hWritten
      · cases h
      · exact .inr (namesOutput_valueArgument value)
    · obtain rfl | ⟨-, hFlag⟩ := hWritten
      · exact .inl rfl
      · exact absurd rfl hFlag

/-- What is not complete is not left out on its own. -/
theorem not_dropped (h : ∀ name value, Piece.ofArgument buildFlags arg ≠ .complete name value) :
    ¬ (arg = "--force" ∨ namesOutput arg = true) := by
  rintro (rfl | hNames)
  · exact h "force" "" rfl
  · obtain ⟨path, hPath⟩ := exists_ofArgument_of_namesOutput hNames
    exact h "out" path hPath

theorem dropOutput_cons_of_keep (hDrop : ¬ (arg = "--force" ∨ namesOutput arg = true))
    (hOut : arg ≠ "--out") : dropOutput (arg :: args) = arg :: dropOutput args := by
  conv_lhs => unfold dropOutput
  rw [if_neg hDrop, if_neg hOut]

/-- An argument that may be a value is not about the file to write. -/
theorem dropOutput_cons_of_value (h : looksLikeOption arg = false) :
    dropOutput (arg :: args) = arg :: dropOutput args := by
  refine dropOutput_cons_of_keep (not_or.2 ⟨?_, fun hNames => ?_⟩) ?_
  · rintro rfl
    exact absurd h (by decide)
  · obtain ⟨rest, hRest⟩ := List.isPrefixOf_iff_prefix.1 hNames
    rw [looksLikeOption, ← hRest] at h
    exact absurd h (by simp)
  · rintro rfl
    exact absurd h (by decide)

/-- The end of the options is kept. -/
theorem dropOutput_cons_of_finish (h : Piece.ofArgument buildFlags arg = .finish) :
    dropOutput (arg :: args) = arg :: dropOutput args := by
  refine dropOutput_cons_of_keep ?_ ?_
  · exact not_dropped fun name value hComplete => by cases h.symm.trans hComplete
  · rintro rfl
    cases h

/-- An option that is complete is left out if it is about the file to write. -/
theorem dropOutput_cons_of_complete (h : Piece.ofArgument buildFlags arg = .complete name value) :
    dropOutput (arg :: args) =
      if name = "out" ∨ name = "force" then dropOutput args else arg :: dropOutput args := by
  by_cases hDrop : arg = "--force" ∨ namesOutput arg = true
  · conv_lhs => unfold dropOutput
    rw [if_pos hDrop, if_pos ((dropped_iff h).1 hDrop)]
  · have hOut : arg ≠ "--out" := by
      rintro rfl
      cases h
    rw [dropOutput_cons_of_keep hDrop hOut, if_neg (mt (dropped_iff h).2 hDrop)]

/-- An option whose value follows is left out, together with its value, if it is about the file to
write. -/
theorem dropOutput_cons_of_incomplete (h : Piece.ofArgument buildFlags arg = .incomplete name)
    (hValue : looksLikeOption value = false) :
    dropOutput (arg :: value :: args) =
      if name = "out" ∨ name = "force" then dropOutput args
      else arg :: value :: dropOutput args := by
  have hKeep := not_dropped fun name value hComplete => by cases h.symm.trans hComplete
  have hArg := Piece.ofArgument_eq_incomplete h
  -- a value is not taken for an option, so nothing is left out behind an option that is kept
  by_cases hName : name = "out" ∨ name = "force"
  · have hOut : arg = "--out" := by
      obtain rfl | rfl := hName
      · exact hArg
      -- allowing to overwrite takes no value
      · exact absurd (.inl hArg) hKeep
    conv_lhs => unfold dropOutput
    rw [if_neg hKeep, if_pos hOut, if_pos hName]
  · have hOut : arg ≠ "--out" := by
      rintro rfl
      exact hName (.inl (Piece.incomplete.inj h).symm)
    rw [dropOutput_cons_of_keep hKeep hOut, dropOutput_cons_of_value hValue, if_neg hName]

/-- What is left of arguments that give options gives those that are not about the file to write. -/
theorem Gives.dropOutput {given : Given} (h : Gives buildFlags args given) :
    Gives buildFlags (dropOutput args) given.withoutOutput := by
  -- an option and its value are kept or left out together, so each step of the reading stays one
  induction h with
  | nil => exact .nil
  | finish h =>
    rw [dropOutput_cons_of_finish h]
    exact .finish h
  | complete h hRest ih =>
    rw [dropOutput_cons_of_complete h, Given.withoutOutput_cons]
    split_ifs
    · exact ih
    · exact .complete h ih
  | incomplete h hValue hRest ih =>
    rw [dropOutput_cons_of_incomplete h hValue, Given.withoutOutput_cons]
    split_ifs
    · exact ih
    · exact .incomplete h hValue ih

/-- What is left of options that are accepted gives those that are not about the file to write. -/
theorem parseGiven?_dropOutput {given : Given} (h : parseGiven? buildFlags args = some given) :
    parseGiven? buildFlags (dropOutput args) = some given.withoutOutput :=
  parseGiven?_eq_some_iff.2 (parseGiven?_eq_some_iff.1 h).dropOutput

end

/-! ## What remains to be done -/

namespace Given

variable {given : Given} {name : String}

/-- The values of the other options are kept. -/
theorem values_withoutOutput (hOut : name ≠ "out") (hForce : name ≠ "force") :
    given.withoutOutput.values name = given.values name := by
  rw [values, values, withoutOutput, List.filter_filter]
  congr 1
  refine List.filter_congr fun g _ => ?_
  by_cases hName : g.1 = name
  · simp [hName, hOut, hForce]
  · simp [hName]

theorem value?_withoutOutput (hOut : name ≠ "out") (hForce : name ≠ "force") :
    given.withoutOutput.value? name = given.value? name :=
  congrArg List.head? (values_withoutOutput hOut hForce)

theorem has_withoutOutput (hOut : name ≠ "out") (hForce : name ≠ "force") :
    given.withoutOutput.has name = given.has name := by
  rw [Bool.eq_iff_iff, has_iff, has_iff, values_withoutOutput hOut hForce]

theorem values_withoutOutput_eq_nil (h : name = "out" ∨ name = "force") :
    given.withoutOutput.values name = [] := by
  rw [values, withoutOutput, List.filter_filter, List.map_eq_nil_iff, List.filter_eq_nil_iff]
  intro g _ hg
  simp only [Bool.and_eq_true, decide_eq_true_eq] at hg
  obtain ⟨rfl, hOut, hForce⟩ := hg
  exact h.elim hOut hForce

/-- No option is given more often than before. -/
theorem length_values_withoutOutput_le (name : String) :
    (given.withoutOutput.values name).length ≤ (given.values name).length := by
  rw [values, values, withoutOutput]
  exact ((List.filter_sublist.filter _).map Prod.snd).length_le

end Given

/-- Options are accepted that can be read and are given as often as they may be. -/
theorem given?_eq_some_iff {flags : List Flag} {args : List String} {given : Given} :
    given? flags args = some given ↔ parseGiven? flags args = some given ∧
      ∀ flag ∈ flags, ¬ (flag.arity ≠ .many ∧ 1 < (given.values flag.name).length) := by
  have hOften : ∀ g : Given, (flags.any fun flag => decide (flag.arity ≠ .many ∧
      1 < (g.filter fun entry => entry.1 = flag.name).length)) = true ↔
        ¬ ∀ flag ∈ flags, ¬ (flag.arity ≠ .many ∧ 1 < (g.values flag.name).length) := fun g => by
    simp [Given.values]
  rw [given?]
  simp only [Option.bind_eq_bind, Option.bind_eq_some_iff, hOften, ite_not,
    Option.ite_none_right_eq_some, Option.some.injEq]
  constructor
  · rintro ⟨g, hParse, hOften, rfl⟩
    exact ⟨hParse, hOften⟩
  · rintro ⟨hParse, hOften⟩
    exact ⟨given, hParse, hOften, rfl⟩

/-- The options of a build are accepted without the file to write. -/
theorem given?_dropOutput {args : List String} {given : Given}
    (h : given? buildFlags args = some given) :
    given? buildFlags (dropOutput args) = some given.withoutOutput := by
  obtain ⟨hParse, hOften⟩ := given?_eq_some_iff.1 h
  refine given?_eq_some_iff.2 ⟨parseGiven?_dropOutput hParse, fun flag hFlag hMany => ?_⟩
  have hLength := given.length_values_withoutOutput_le flag.name
  exact hOften flag hFlag ⟨hMany.1, Nat.lt_of_lt_of_le hMany.2 hLength⟩

/-- The options of a compilation that are given. -/
def Given.options (given : Given) : Options where
  languages := if given.values "lang" = [] then Options.default.languages else given.values "lang"
  instanceRoot := (given.value? "instance-root").getD Options.default.instanceRoot
  formId := given.value? "form-id"
  bodyRefs := if given.has "relative-refs" then .relative else .absolute

/-- What a build is asked to do, field by field. -/
theorem Build.ofGiven?_eq_some_iff {given : Given} {b : Build} :
    ofGiven? given = some b ↔ (given.value? "form").elim none path? = some b.form ∧
      (given.value? "format").elim (some .xml) Format.ofName? = some b.format ∧
      (given.value? "out").elim (some none) (fun out => some <$> path? out) = some b.out ∧
      b.options = given.options ∧ b.force = given.has "force" := by
  have hSteps : ofGiven? given = ((given.value? "form").elim none path?).bind fun form =>
      ((given.value? "format").elim (some .xml) Format.ofName?).bind fun format =>
        ((given.value? "out").elim (some none) fun out => some <$> path? out).bind fun out =>
          some ⟨form, given.options, format, out, given.has "force"⟩ := by
    rw [ofGiven?]
    cases given.value? "form" <;> cases given.value? "format" <;> cases given.value? "out" <;> rfl
  rw [hSteps]
  simp only [Option.bind_eq_some_iff, Option.some.injEq]
  constructor
  · rintro ⟨form, hForm, format, hFormat, out, hOut, rfl⟩
    exact ⟨hForm, hFormat, hOut, rfl, rfl⟩
  · rintro ⟨hForm, hFormat, hOut, hOptions, hForce⟩
    exact ⟨_, hForm, _, hFormat, _, hOut, by rw [← hOptions, ← hForce]⟩

/-- What remains of the options of a build asks for the same build to the output. -/
theorem Build.ofGiven?_withoutOutput {given : Given} {b : Build}
    (h : Build.ofGiven? given = some b) :
    Build.ofGiven? given.withoutOutput = some { b with out := none, force := false } := by
  have hOut : given.withoutOutput.value? "out" = none := by
    rw [Given.value?, Given.values_withoutOutput_eq_nil (.inl rfl)]
    rfl
  have hForce : given.withoutOutput.has "force" = false := by
    rw [Bool.eq_false_iff, Ne, Given.has_iff, Given.values_withoutOutput_eq_nil (.inr rfl)]
    exact not_not_intro rfl
  have hOptions : given.withoutOutput.options = given.options := by
    rw [Given.options, Given.values_withoutOutput (by decide) (by decide),
      Given.value?_withoutOutput (by decide) (by decide),
      Given.value?_withoutOutput (by decide) (by decide),
      Given.has_withoutOutput (by decide) (by decide)]
    rfl
  obtain ⟨hForm, hFormat, -, hAsked, -⟩ := ofGiven?_eq_some_iff.1 h
  rw [ofGiven?_eq_some_iff, hOut, hForce, hOptions,
    Given.value?_withoutOutput (by decide) (by decide),
    Given.value?_withoutOutput (by decide) (by decide)]
  exact ⟨hForm, hFormat, rfl, hAsked, rfl⟩

/-- Only the command of a build asks for one, by options that are given as often as they may be. -/
theorem Invocation.exists_given_of_build {command : String} {args : List String} {verbose : Bool}
    {b : Build} (h : ofCommand? command args = some ⟨verbose, .build b⟩) :
    command = "build" ∧ ∃ given, given? buildFlags args = some given ∧
      Build.ofGiven? given = some b ∧ given.has "verbose" = verbose := by
  unfold ofCommand? at h
  split at h
  next =>
    obtain ⟨given, hGiven, h⟩ := Option.bind_eq_some_iff.1 h
    obtain ⟨b', hBuild, h⟩ := Option.bind_eq_some_iff.1 h
    cases h
    exact ⟨rfl, given, hGiven, hBuild, rfl⟩
  next =>
    obtain ⟨given, -, h⟩ := Option.bind_eq_some_iff.1 h
    obtain ⟨value, -, h⟩ := Option.bind_eq_some_iff.1 h
    obtain ⟨path, -, h⟩ := Option.bind_eq_some_iff.1 h
    cases h
  next =>
    obtain ⟨given, -, h⟩ := Option.bind_eq_some_iff.1 h
    cases h
  next => cases h

/-- What remains of the arguments of a build asks for the same build to the output. -/
theorem Invocation.ofCommand?_dropOutput {command : String} {args : List String} {verbose : Bool}
    {b : Build} (h : ofCommand? command args = some ⟨verbose, .build b⟩) :
    ofCommand? command (dropOutput args) =
      some ⟨verbose, .build { b with out := none, force := false }⟩ := by
  obtain ⟨rfl, given, hGiven, hBuild, rfl⟩ := exists_given_of_build h
  unfold ofCommand?
  rw [given?_dropOutput hGiven, Option.bind_eq_bind, Option.bind_some,
    Build.ofGiven?_withoutOutput hBuild, Given.has_withoutOutput (by decide) (by decide)]
  rfl

/-- Logging is asked for before the command, or the command comes first. -/
theorem Invocation.exists_command {args : List String} {verbose : Bool} {request : Request}
    (h : ofArguments? args = some ⟨verbose, request⟩) :
    (∃ arg command rest v, (arg = "-v" ∨ arg = "--verbose") ∧ args = arg :: command :: rest ∧
      ofCommand? command rest = some ⟨v, request⟩ ∧ verbose = true) ∨
    ∃ command rest, ¬ (command = "-v" ∨ command = "--verbose") ∧ args = command :: rest ∧
      ofCommand? command rest = some ⟨verbose, request⟩ := by
  cases args with
  | nil => cases h
  | cons arg args =>
    unfold ofArguments? at h
    dsimp only at h
    split_ifs at h with hVerbose
    · cases args with
      | nil => cases h
      | cons command rest =>
        obtain ⟨⟨v, _⟩, hCommand, h⟩ := Option.bind_eq_some_iff.1 h
        cases h
        exact .inl ⟨arg, command, rest, v, hVerbose, rfl, hCommand, rfl⟩
    · exact .inr ⟨arg, args, hVerbose, rfl, h⟩

/-- Without the arguments that name a file and allow to overwrite it, the same build is asked for to
the standard output. -/
theorem Invocation.ofArguments?_withoutOutput {args : List String} {verbose : Bool} {b : Build}
    (h : ofArguments? args = some ⟨verbose, .build b⟩) :
    ofArguments? (withoutOutput args) =
      some ⟨verbose, .build { b with out := none, force := false }⟩ := by
  obtain ⟨arg, command, rest, v, hVerbose, rfl, hCommand, rfl⟩ |
    ⟨command, rest, hVerbose, rfl, hCommand⟩ := exists_command h
  · unfold withoutOutput ofArguments?
    dsimp only
    rw [if_pos hVerbose]
    dsimp only
    rw [if_pos hVerbose, ofCommand?_dropOutput hCommand]
    rfl
  · unfold withoutOutput ofArguments?
    dsimp only
    rw [if_neg hVerbose]
    dsimp only
    rw [if_neg hVerbose, ofCommand?_dropOutput hCommand]

/-! ## Being allowed to overwrite -/

/-- The option to overwrite is given by one argument alone. -/
theorem Gives.mem_of_has_force {args : List String} {given : Given}
    (h : Gives buildFlags args given) (hForce : given.has "force" = true) : "--force" ∈ args := by
  induction h with
  | nil => cases hForce
  | finish h => cases hForce
  | @complete arg name value args given h hRest ih =>
    by_cases hName : name = "force"
    · subst hName
      obtain hVerbose | rfl | ⟨-, hFlag⟩ := Piece.ofArgument_eq_complete h
      · exact absurd hVerbose (by decide)
      · exact List.mem_cons_self ..
      · exact absurd rfl hFlag
    · exact List.mem_cons_of_mem _ (ih (by simpa [Given.has, hName] using hForce))
  | @incomplete arg name value args given h hValue hRest ih =>
    by_cases hName : name = "force"
    · subst hName
      obtain rfl := Piece.ofArgument_eq_incomplete h
      exact List.mem_cons_self ..
    · have hLater := ih (by simpa [Given.has, hName] using hForce)
      exact List.mem_cons_of_mem _ (List.mem_cons_of_mem _ hLater)

/-- The command of a build may overwrite only with `--force` among its arguments. -/
theorem Invocation.mem_of_force {command : String} {args : List String} {verbose : Bool} {b : Build}
    (h : ofCommand? command args = some ⟨verbose, .build b⟩) (hForce : b.force = true) :
    "--force" ∈ args := by
  obtain ⟨-, given, hGiven, hBuild, -⟩ := exists_given_of_build h
  obtain ⟨-, -, -, -, hHas⟩ := Build.ofGiven?_eq_some_iff.1 hBuild
  have hGives := parseGiven?_eq_some_iff.1 (given?_eq_some_iff.1 hGiven).1
  exact hGives.mem_of_has_force (hHas.symm.trans hForce)

/-- Only a build names a file for its document. -/
theorem exists_build_of_outputOf? {args : List String} {path : String} {force : Bool}
    (h : outputOf? args = some (path, force)) : ∃ verbose b,
      Invocation.ofArguments? args = some ⟨verbose, .build b⟩ ∧ b.out = some path ∧
        b.force = force := by
  unfold outputOf? at h
  split at h
  next verbose b hArgs =>
    obtain ⟨out, hOut, h⟩ := Option.map_eq_some_iff.1 h
    obtain ⟨rfl, rfl⟩ := Prod.mk.inj h
    exact ⟨verbose, b, hArgs, hOut, rfl⟩
  next => cases h

/-- A file may be overwritten only by a run with `--force` among its arguments. -/
theorem mem_of_outputOf?_force {args : List String} {path : String}
    (h : outputOf? args = some (path, true)) : "--force" ∈ args := by
  obtain ⟨verbose, b, hArgs, -, hForce⟩ := exists_build_of_outputOf? h
  obtain ⟨arg, command, rest, v, -, rfl, hCommand, -⟩ | ⟨command, rest, -, rfl, hCommand⟩ :=
    Invocation.exists_command hArgs
  · have hMem := Invocation.mem_of_force hCommand hForce
    exact List.mem_cons_of_mem _ (List.mem_cons_of_mem _ hMem)
  · exact List.mem_cons_of_mem _ (Invocation.mem_of_force hCommand hForce)

/-- A run without `--force` among its arguments overwrites nothing. -/
theorem force_eq_false_of_outputOf? {args : List String} {path : String} {force : Bool}
    (h : outputOf? args = some (path, force)) (hMissing : "--force" ∉ args) : force = false := by
  cases force with
  | false => rfl
  | true => exact absurd (mem_of_outputOf?_force h) hMissing

end FormDesign.Command
