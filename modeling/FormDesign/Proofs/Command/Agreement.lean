import FormDesign.Proofs.Command.Arguments
import FormDesign.Proofs.Command.Runs
import FormDesign.Proofs.Host.Config

/-!
# The command line and the host interface

The command line and a host ask for the same things in different ways. The one gives options as
arguments and gets a code, an output and lines for errors; the other gives them as JSON and gets one
answer. Still both come to the same: a build prints the markup that a host is answered with, and
fails in the words of the envelope; a check succeeds when a host is told so, and otherwise fails in
the same words.

## Main definitions

* `Report.Succeeds`, `Report.FailsWith`: what a run leaves behind when no log line is shown.

## Main results

* `Build.textOf_of_documentOf`: a build makes of a text what a host makes of it;
* `run_build`, `run_check`: a run reads the file, changes nothing, and reports what is made of the
  text;
* `run_agrees_with_host`: the command line and the host interface come to the same.
-/

namespace FormDesign.Command

open Json (Value)
open Xml (Node)

/-! ## Reports -/

namespace Report

/-- Whether a filter shows none of the log lines of a run. -/
def IsSilent (report : Report) (filter : Filter) : Prop :=
  ∀ line ∈ report.log, filter.shows line = false

/-- A run that succeeds with an output and leaves nothing on the error output but log lines. -/
structure Succeeds (report : Report) (output : String) : Prop where
  code : report.code = 0
  output : report.output = output
  errors : ∀ filter, report.IsSilent filter → report.errorLines filter = []

/-- A run that fails with one line on the error output besides log lines, and without an output. -/
structure FailsWith (report : Report) (message : String) : Prop where
  code : report.code = 1
  output : report.output = ""
  errors : ∀ filter, report.IsSilent filter → report.errorLines filter = ["error: " ++ message]

/-- A filter that shows no line of a report leaves none. -/
theorem filter_log_of_isSilent {report : Report} {filter : Filter} (h : report.IsSilent filter) :
    report.log.filter filter.shows = [] :=
  List.filter_eq_nil_iff.2 fun line hLine => by simpa using h line hLine

theorem succeeds_success (log : List Line) (output : String) :
    (success log output).Succeeds output := by
  refine ⟨rfl, rfl, fun filter hSilent => ?_⟩
  rw [errorLines, filter_log_of_isSilent hSilent]
  rfl

theorem failsWith_fail (log : List Line) (reason : String) :
    (fail log reason).FailsWith reason := by
  refine ⟨rfl, rfl, fun filter hSilent => ?_⟩
  rw [errorLines, filter_log_of_isSilent hSilent]
  rfl

/-- Without settings, lines that matter less than warnings are not shown. -/
theorem isSilent_default {report : Report}
    (h : ∀ line ∈ report.log, Level.warn.rank < line.level.rank) :
    report.IsSilent (.ofSettings none false) := by
  intro line hLine
  have hRank := h line hLine
  have hShows : (Filter.ofSettings none false).shows line =
      decide (line.level.rank ≤ Level.warn.rank) := by
    obtain ⟨level, area, keys, within, text⟩ := line
    cases within <;> rfl
  rw [hShows, decide_eq_false_iff_not]
  omega

end Report

/-! ## Builds, checks and requests of hosts -/

/-- What a build does with the text of its form, when the document goes to the output. -/
def Build.report (b : Build) (content : String) : Report :=
  let log := [Line.read b.form content.utf8ByteSize]
  match b.textOf content with
  | .error failure => .fail log failure.message
  | .ok (lines, text) => .success (log ++ lines) text

section

variable {b : Build} {config content : String}

/-- A build that has the options of a request of a host makes of a text what the host makes of
it. -/
theorem Build.textOf_of_documentOf (hOptions : Host.optionsOf config = .ok b.options)
    (content : String) :
    (∀ failure, Host.documentOf config content = .error failure →
      b.textOf content = .error failure) ∧
    ∀ doc, Host.documentOf config content = .ok doc →
      ∃ lines, b.textOf content = .ok (lines, b.format.text doc) := by
  have hText : b.textOf content = Host.formOf content >>= fun form =>
      (form.compile b.options).mapError .refused >>= fun node =>
        .ok (Line.ofCompilation form b.options, b.format.text node) := rfl
  rw [Host.documentOf_eq hOptions, hText]
  cases Host.formOf content with
  | error failure =>
    exact ⟨fun _ h => congrArg Except.error (Except.error.inj h), fun _ h => nomatch h⟩
  | ok form =>
    simp only [ok_bind]
    cases form.compile b.options with
    | error defect =>
      exact ⟨fun _ h => congrArg Except.error (Except.error.inj h), fun _ h => nomatch h⟩
    | ok node =>
      refine ⟨fun _ h => (nomatch h), fun doc h => ⟨Line.ofCompilation form b.options, ?_⟩⟩
      obtain rfl : node = doc := Except.ok.inj h
      rfl

/-- A build to the output comes to what a host is answered with. -/
theorem Build.report_agrees (hOptions : Host.optionsOf config = .ok b.options)
    (hFormat : b.format = .xml) :
    (¬ Host.IsEnvelope (Host.compileXml config content) →
      (b.report content).Succeeds (Host.compileXml config content)) ∧
    ∀ message, Host.compileXml config content = Host.envelope message →
      (b.report content).FailsWith message := by
  obtain ⟨hError, hOk⟩ := Build.textOf_of_documentOf hOptions content
  cases hDocument : Host.documentOf config content with
  | error failure =>
    have hXml : Host.compileXml config content = Host.envelope failure.message :=
      Host.compileXml_of_error hDocument
    have hFails : (b.report content).FailsWith failure.message := by
      rw [report, hError failure hDocument]
      exact Report.failsWith_fail _ _
    rw [hXml]
    refine ⟨fun hNot => absurd (Host.isEnvelope_envelope _) hNot, fun message hMessage => ?_⟩
    rwa [← Host.envelope_injective hMessage]
  | ok doc =>
    have hXml : Host.compileXml config content = doc.render := by
      rw [Host.compileXml, hDocument]
    have hMarkup := Host.not_isEnvelope_of_markup (Host.exists_render_of_documentOf hDocument)
    have hSucceeds : (b.report content).Succeeds doc.render := by
      obtain ⟨lines, hLines⟩ := hOk doc hDocument
      rw [report, hLines, hFormat]
      exact Report.succeeds_success _ _
    rw [hXml]
    exact ⟨fun _ => hSucceeds, fun message hMessage => absurd ⟨message, hMessage⟩ hMarkup⟩

/-- A check comes to what a host is told by one. -/
theorem checkReport_agrees (path content : String) :
    (Host.check content = Host.validAnswer → (checkReport path content).Succeeds "ok\n") ∧
    ∀ message, Host.check content = Host.invalidAnswer message →
      (checkReport path content).FailsWith message := by
  have hOutcome : (do (← Host.formOf content).check.mapError .refused) = checkText content := rfl
  rw [Host.check, hOutcome, checkReport]
  cases checkText content with
  | error failure =>
    refine ⟨fun h => absurd h.symm (Host.validAnswer_ne_invalidAnswer _), fun message h => ?_⟩
    rw [← Host.invalidAnswer_injective h]
    exact Report.failsWith_fail _ _
  | ok u =>
    refine ⟨fun _ => Report.succeeds_success _ _, fun message h => ?_⟩
    exact absurd h (Host.validAnswer_ne_invalidAnswer message)

end

/-! ## What is told -/

/-- What is told of a compilation matters less than a warning. -/
theorem Line.rank_ofCompilation (form : Form) (options : Options) :
    ∀ line ∈ ofCompilation form options, Level.warn.rank < line.level.rank := by
  rw [ofCompilation]
  refine List.forall_mem_append.2 ⟨List.forall_mem_map.2 fun _ _ => ?_,
    List.forall_mem_singleton.2 ?_⟩
  · exact (by decide : Level.warn.rank < Level.trace.rank)
  · exact (by decide : Level.warn.rank < Level.debug.rank)

theorem Line.rank_read (path : String) (size : Nat) :
    Level.warn.rank < (Line.read path size).level.rank :=
  (by decide : Level.warn.rank < Level.debug.rank)

/-- A build shows no log line when no progress is asked for. -/
theorem Build.isSilent_report (b : Build) (content : String) :
    (b.report content).IsSilent (.ofSettings none false) := by
  apply Report.isSilent_default
  rw [report]
  cases hText : b.textOf content with
  | error failure => exact List.forall_mem_singleton.2 (Line.rank_read _ _)
  | ok result =>
    obtain ⟨form, -, hText⟩ := bind_eq_ok_iff.1 hText
    obtain ⟨node, -, hText⟩ := bind_eq_ok_iff.1 hText
    obtain rfl := Except.ok.inj hText
    exact List.forall_mem_cons.2 ⟨Line.rank_read _ _, Line.rank_ofCompilation form b.options⟩

/-- A check shows no log line when no progress is asked for. -/
theorem isSilent_checkReport (path content : String) :
    (checkReport path content).IsSilent (.ofSettings none false) := by
  apply Report.isSilent_default
  rw [checkReport]
  cases checkText content with
  | error failure => exact List.forall_mem_singleton.2 (Line.rank_read _ _)
  | ok u => exact List.forall_mem_singleton.2 (Line.rank_read _ _)

/-! ## Runs of the command line -/

section

variable {σ : Type} [FileStore σ] {s : σ}
variable {args : List String} {verbose : Bool} {content : String}

/-- A run of a build to the output reads the file, changes none, and reports what is made of it. -/
theorem run_build {b : Build} (hArgs : Invocation.ofArguments? args = some ⟨verbose, .build b⟩)
    (hOut : b.out = none) (hRead : FileStore.read s b.form = .ok content.toUTF8) :
    (run args : StateM σ (Bool × Report)).run s = ((verbose, b.report content), s) := by
  rw [run_of_build hArgs, run_runBuild, Build.prepare, FileStore.textOf_of_read hRead, Build.report,
    hOut]
  dsimp only
  cases b.textOf content <;> rfl

/-- A run of a check reads the file, changes none, and reports what is wrong with the form. -/
theorem run_check {path : String}
    (hArgs : Invocation.ofArguments? args = some ⟨verbose, .check path⟩)
    (hRead : FileStore.read s path = .ok content.toUTF8) :
    (run args : StateM σ (Bool × Report)).run s = ((verbose, checkReport path content), s) := by
  rw [run_of_check hArgs, run_runCheck, FileStore.textOf_of_read hRead]

end

/-- The command line and the host interface come to the same. Every combination of settings can be
asked for. Whatever arguments ask for a build to the output as markup, whatever state holds the
files, and whatever text the file of the form holds, the options that are asked for, written as JSON
in whatever layout, are read by a host as these options; and the run changes no file and prints what
the host is answered with when that is a document, and otherwise prints nothing and fails in the
words of the envelope. A check prints `ok` exactly when the host is told that the form is valid, and
otherwise fails in the words that the host is told. No log line is shown when no progress is asked
for. -/
theorem run_agrees_with_host (σ : Type) [FileStore σ] :
    (∀ (settings : Settings) (path : String), path ≠ "" →
      Invocation.ofArguments? ("build" :: settings.arguments path) =
        some ⟨false, .build ⟨path, settings.options, .xml, none, false⟩⟩) ∧
    (∀ (args : List String) (verbose : Bool) (b : Build) (s : σ) (content : String)
      (layout : Json.Layout), Invocation.ofArguments? args = some ⟨verbose, .build b⟩ →
      b.format = .xml → b.out = none → FileStore.read s b.form = .ok content.toUTF8 →
        Host.optionsOf (b.options.toValue.print layout) = .ok b.options ∧
        ∃ report, (run args : StateM σ (Bool × Report)).run s = ((verbose, report), s) ∧
          report.IsSilent (.ofSettings none false) ∧
          (¬ Host.IsEnvelope (Host.compileXml (b.options.toValue.print layout) content) →
            report.Succeeds (Host.compileXml (b.options.toValue.print layout) content)) ∧
          ∀ message,
            Host.compileXml (b.options.toValue.print layout) content = Host.envelope message →
              report.FailsWith message) ∧
    ∀ (args : List String) (verbose : Bool) (path : String) (s : σ) (content : String),
      Invocation.ofArguments? args = some ⟨verbose, .check path⟩ →
      FileStore.read s path = .ok content.toUTF8 →
        ∃ report, (run args : StateM σ (Bool × Report)).run s = ((verbose, report), s) ∧
          report.IsSilent (.ofSettings none false) ∧
          (report.code = 0 ∧ report.output = "ok\n" ↔ Host.check content = Host.validAnswer) ∧
          (Host.check content = Host.validAnswer → report.Succeeds "ok\n") ∧
          (Host.check content ≠ Host.validAnswer →
            ∃ message, Host.check content = Host.invalidAnswer message ∧
              report.FailsWith message) := by
  refine ⟨fun settings path hPath => Invocation.ofArguments?_arguments settings hPath,
    fun args verbose b s content layout hArgs hFormat hOut hRead => ?build,
    fun args verbose path s content hArgs hRead => ?check⟩
  case build =>
    have hOptions := Host.optionsOf_print_toValue layout b.options
    exact ⟨hOptions, _, run_build hArgs hOut hRead, b.isSilent_report content,
      Build.report_agrees hOptions hFormat⟩
  case check =>
    obtain ⟨hValid, hInvalid⟩ := checkReport_agrees path content
    have hOtherwise : Host.check content ≠ Host.validAnswer →
        ∃ message, Host.check content = Host.invalidAnswer message ∧
          (checkReport path content).FailsWith message := by
      intro hNot
      obtain ⟨message, hMessage⟩ := (Host.check_eq_or content).resolve_left hNot
      exact ⟨message, hMessage, hInvalid message hMessage⟩
    refine ⟨_, run_check hArgs hRead, isSilent_checkReport path content, ⟨?_, ?_⟩, hValid,
      hOtherwise⟩
    · rintro ⟨hCode, -⟩
      by_contra hNot
      obtain ⟨message, -, hFails⟩ := hOtherwise hNot
      rw [hFails.code] at hCode
      exact absurd hCode (by decide)
    · exact fun h => ⟨(hValid h).code, (hValid h).output⟩

/-- A file with a form of two questions of one name, in the working directory. -/
def twinsDirectory : Directory :=
  ⟨⟨["home", "work"]⟩, [(⟨["home", "work", "f.json"]⟩, Host.twinsDocument.compact.toUTF8)]⟩

/-- Two languages in French and English order, a root of another name and relative references. -/
def twinsSettings : Settings where
  languages := ["fr", "en"]
  instanceRoot := some "r"
  formId := none
  relativeRefs := true

/-- A form with two questions of one name is refused in the same words by both. -/
theorem run_agrees_with_host_twins :
    let build := "build" :: twinsSettings.arguments "f.json"
    let check := ["-v", "check", "--form", "f.json"]
    (∃ report, (run build : StateM Directory (Bool × Report)).run twinsDirectory =
        ((false, report), twinsDirectory) ∧
      report.FailsWith (Defect.duplicateName "/" "q").message) ∧
    ∃ report, (run check : StateM Directory (Bool × Report)).run twinsDirectory =
        ((true, report), twinsDirectory) ∧
      report.FailsWith (Defect.duplicateName "/" "q").message := by
  intro build check
  let content := Host.twinsDocument.compact
  have hForm : Form.ofJson content = .ok Host.twinsForm :=
    (Json.readText_print Form.read .compact Host.twinsDocument).trans rfl
  have hDefect : Host.twinsForm.check = .error (.duplicateName "/" "q") := rfl
  have hAlone : ∀ bytes : ByteArray,
      (⟨⟨["home", "work"]⟩, [(⟨["home", "work", "f.json"]⟩, bytes)]⟩ : Directory).read "f.json" =
        .ok bytes := fun _ => rfl
  have hRead : FileStore.read twinsDirectory "f.json" = .ok content.toUTF8 := hAlone _
  obtain ⟨hSettings, hBuilds, hChecks⟩ := run_agrees_with_host Directory
  have hBuild := hSettings twinsSettings "f.json" (by decide)
  obtain ⟨hOptions, report, hRun, -, -, hFails⟩ :=
    hBuilds build false _ twinsDirectory content .compact hBuild rfl rfl hRead
  have hXml := Host.compileXml_of_defect hOptions hForm rfl hDefect
  have hCheck : Host.check content = Host.invalidAnswer (Defect.duplicateName "/" "q").message :=
    Host.check_of_defect hForm hDefect
  obtain ⟨report', hRun', -, -, -, hOtherwise⟩ :=
    hChecks check true "f.json" twinsDirectory content (by decide) hRead
  have hInvalid : Host.check content ≠ Host.validAnswer := by
    rw [hCheck]
    exact (Host.validAnswer_ne_invalidAnswer _).symm
  obtain ⟨message, hMessage, hFails'⟩ := hOtherwise hInvalid
  obtain rfl := Host.invalidAnswer_injective (hMessage.symm.trans hCheck)
  exact ⟨⟨report, hRun, hFails _ hXml⟩, report', hRun', hFails'⟩

end FormDesign.Command
