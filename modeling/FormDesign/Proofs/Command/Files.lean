import FormDesign.Proofs.Command.Output
import FormDesign.Proofs.Command.Runs
import FormDesign.Proofs.Command.Storage
import FormDesign.Proofs.Json.Text

/-!
# Files after runs

A run does no harm to files. It reads and compiles before it writes, so that a run that fails
leaves every file as it was; only a build that names a file changes one, and one that was there
before only if it may; and what the file then holds is what the same build prints without naming it.
Runs may follow one another in any order, read what earlier ones have written, and write over their
own forms: a file that no run is allowed to overwrite keeps its content through all of them.

Files are told apart by what they are and not by how they are named, so all this holds whatever
paths lead to a file. What is printed is taken to arrive: a run is not described whose standard
output cannot be written.

## Main definitions

* `after`, `filesAfter`: the files after a run, and after a sequence of runs;
* `Spares`: what a single run may do to the files.

## Main results

* `spares_run`: a single run does no harm;
* `content?_after`, `file?_after_iff`: a file keeps its content, unless a run overwrites it, and the
  paths that lead to it;
* `runs_spare_files`: no sequence of runs does harm.
-/

namespace FormDesign.Command

open FileView

variable {σ : Type} [FileStore σ]

/-! ## A single run -/

/-- A document is delivered if it can be written, and what is present is replaced only by force. -/
theorem FileStore.deliver_eq_ok_iff {s s' : σ} {path text : String} {force : Bool} :
    FileStore.deliver s path force text = .ok s' ↔
      (FileStore.present s path = true → force = true) ∧
        FileStore.write s path text.toUTF8 = .ok s' := by
  rw [deliver]
  cases force <;> cases FileStore.present s path <;> simp [mapError_eq_ok_iff]

/-- What a run reports. -/
def reportOf (args : List String) (s : σ) : Report :=
  ((run args : StateM σ (Bool × Report)).run s).1.2

/-- The files after a run. -/
def after (args : List String) (s : σ) : σ :=
  ((run args : StateM σ (Bool × Report)).run s).2

/-- What a run may do to the files in a state. -/
structure Spares [FileView σ] (args : List String) (s : σ) : Prop where
  /-- A run that fails leaves every file as it was. -/
  failure : (reportOf args s).code ≠ 0 → after args s = s
  /-- A check, a schema and a build to the standard output change no file. -/
  noOutput : outputOf? args = none → after args s = s
  /-- A build that succeeds has changed at most the file that it names. If something was there
  before, the arguments allow to overwrite it, and what is there now is what the same build prints
  without naming the file. -/
  output : ∀ path force, outputOf? args = some (path, force) → (reportOf args s).code = 0 →
    (FileStore.present s path = true → force = true ∧ "--force" ∈ args) ∧
      ∃ verbose log text,
        (run (withoutOutput args) : StateM σ (Bool × Report)).run s =
          ((verbose, .success log text), s) ∧
        ∃ f, Replaced s (after args s) path text.toUTF8 f

section

variable {s : σ} {args : List String} {path : String} {force : Bool}

/-- A run that names a file fails and changes none, or writes there what it prints without naming
it. -/
theorem run_of_output (h : outputOf? args = some (path, force)) (s : σ) :
    (reportOf args s).code = 1 ∧ after args s = s ∨
      (reportOf args s).code = 0 ∧ (FileStore.present s path = true → force = true) ∧
        ∃ verbose log text, FileStore.write s path text.toUTF8 = .ok (after args s) ∧
          (run (withoutOutput args) : StateM σ (Bool × Report)).run s =
            ((verbose, .success log text), s) := by
  obtain ⟨verbose, b, hArgs, hOut, rfl⟩ := exists_build_of_outputOf? h
  have hPrinted := run_of_build (Invocation.ofArguments?_withoutOutput hArgs) s
  rw [reportOf, after, run_of_build hArgs s]
  rw [run_runBuild] at hPrinted ⊢
  -- what is made of the form does not depend on where the document goes
  have hPrepare : Build.prepare { b with out := none, force := false } s = b.prepare s := rfl
  rw [hPrepare] at hPrinted
  rw [hOut]
  cases hPrepared : b.prepare s with
  | error report => exact .inl ⟨Build.code_of_prepare hPrepared, rfl⟩
  | ok result =>
    obtain ⟨log, text⟩ := result
    rw [hPrepared] at hPrinted
    dsimp only
    cases hDeliver : FileStore.deliver s path b.force text with
    | error reason => exact .inl ⟨rfl, rfl⟩
    | ok s' =>
      obtain ⟨hForce, hWrite⟩ := FileStore.deliver_eq_ok_iff.1 hDeliver
      exact .inr ⟨rfl, hForce, verbose, log, text, hWrite, hPrinted⟩

/-- A run that names no file changes none. -/
theorem after_of_no_output (h : outputOf? args = none) (s : σ) : after args s = s := by
  unfold outputOf? at h
  rw [after]
  split at h
  next verbose b hArgs =>
    rw [run_of_build hArgs s, run_runBuild, Option.map_eq_none_iff.1 h]
    cases b.prepare s <;> rfl
  next hNoBuild =>
    cases hArgs : Invocation.ofArguments? args with
    | none =>
      rw [run, hArgs]
      rfl
    | some invocation =>
      obtain ⟨verbose, request⟩ := invocation
      cases request with
      | build b => exact (hNoBuild verbose b hArgs).elim
      | check form =>
        rw [run_of_check hArgs, run_runCheck]
        cases FileStore.textOf s form <;> rfl
      | schema =>
        rw [run, hArgs]
        rfl

end

/-! ## Sequences of runs -/

/-- The files after runs, one after the other. -/
def filesAfter (runs : List (List String)) (s : σ) : σ :=
  runs.foldl (fun s args => after args s) s

section

variable [LawfulFileStore σ]

/-- A run does no harm to files. -/
theorem spares_run (args : List String) (s : σ) : Spares args s := by
  cases hOutput : outputOf? args with
  | none =>
    have hAfter := after_of_no_output hOutput s
    refine ⟨fun _ => hAfter, fun _ => hAfter, fun path force h => ?_⟩
    cases hOutput.symm.trans h
  | some output =>
    refine ⟨fun hFails => ?_, fun h => ?_, fun path force h hSuccess => ?_⟩
    · obtain ⟨-, hAfter⟩ | ⟨hCode, -⟩ := run_of_output hOutput s
      · exact hAfter
      · exact absurd hCode hFails
    · cases hOutput.symm.trans h
    · obtain ⟨hCode, -⟩ | ⟨-, hForce, verbose, log, text, hWrite, hPrinted⟩ := run_of_output h s
      · rw [hCode] at hSuccess
        cases hSuccess
      · refine ⟨fun hPresent => ?_, verbose, log, text, hPrinted,
          LawfulFileStore.exists_of_write hWrite⟩
        obtain rfl := hForce hPresent
        exact ⟨rfl, mem_of_outputOf?_force h⟩

variable {s : σ} {f : File σ} {content : ByteArray} {args : List String}

/-- A run leaves the files as they were or replaces one, and one that was there only by force. -/
theorem after_eq_or_replaced (args : List String) (s : σ) :
    after args s = s ∨ ∃ path force text f, outputOf? args = some (path, force) ∧
      (FileStore.present s path = true → force = true) ∧
        Replaced s (after args s) path text f := by
  cases hOutput : outputOf? args with
  | none => exact .inl (after_of_no_output hOutput s)
  | some output =>
    obtain ⟨path, force⟩ := output
    obtain ⟨-, hAfter⟩ | ⟨-, hForce, verbose, log, text, hWrite, -⟩ := run_of_output hOutput s
    · exact .inl hAfter
    · obtain ⟨f, hReplaced⟩ := LawfulFileStore.exists_of_write hWrite
      exact .inr ⟨path, force, _, f, rfl, hForce, hReplaced⟩

/-- A file keeps its content through a run, unless the run names it and may overwrite it. -/
theorem content?_after (hFile : content? s f = some content)
    (hKeep : ∀ path force, outputOf? args = some (path, force) → file? s path = some f →
      force = false) : content? (after args s) f = some content := by
  obtain hAfter | ⟨path, force, text, g, hOutput, hForce, hReplaced⟩ := after_eq_or_replaced args s
  · rwa [hAfter]
  -- if the run wrote over the file, it would have force
  · have hOther : f ≠ g := by
      rintro rfl
      cases hPath : file? s path with
      | none => cases hFile.symm.trans (hReplaced.new hPath)
      | some led =>
        obtain rfl := hReplaced.same led hPath
        have hForced := hForce (LawfulFileStore.present_of_file hPath)
        cases (hKeep path force hOutput hPath).symm.trans hForced
    exact (hReplaced.other f hOther).trans hFile

/-- The paths that lead to a file are the same after a run. -/
theorem file?_after_iff (hFile : content? s f = some content) {p : String} :
    file? (after args s) p = some f ↔ file? s p = some f := by
  obtain hAfter | ⟨path, force, text, g, -, -, hReplaced⟩ := after_eq_or_replaced args s
  · rw [hAfter]
  · obtain hSame | ⟨hNone, hNew, hAbsent⟩ := hReplaced.paths p
    · rw [hSame]
    -- a path to a new file does not lead to one that was there
    · have hOther : f ≠ g := by
        rintro rfl
        cases hFile.symm.trans hAbsent
      rw [hNone, hNew]
      exact ⟨fun h => absurd (Option.some.inj h).symm hOther, fun h => by cases h⟩

/-- A file keeps its content, and the paths that lead to it, through runs of which none names it and
may overwrite it. -/
theorem content?_filesAfter {runs : List (List String)} (hFile : content? s f = some content)
    (hKeep : ∀ args ∈ runs, ∀ path force, outputOf? args = some (path, force) →
      file? s path = some f → force = false) :
    content? (filesAfter runs s) f = some content ∧
      ∀ p, file? (filesAfter runs s) p = some f ↔ file? s p = some f := by
  -- the paths are carried along, since a later run names files as they are when it starts
  induction runs generalizing s with
  | nil => exact ⟨hFile, fun _ => Iff.rfl⟩
  | cons args runs ih =>
    obtain ⟨hRun, hRuns⟩ := List.forall_mem_cons.1 hKeep
    obtain ⟨hContent, hPaths⟩ := ih (content?_after hFile hRun)
      fun later hLater path force h hPath =>
        hRuns later hLater path force h ((file?_after_iff hFile).1 hPath)
    exact ⟨hContent, fun p => (hPaths p).trans (file?_after_iff hFile)⟩

/-- No sequence of runs does harm to files. Whatever files there are, whatever paths lead to them,
whatever the arguments of the runs are, and whatever they read of what earlier ones have written:
each run leaves every file as it was if it fails, whether on reading, parsing, checking, compiling
or writing, and if it is a check, a schema or a build to the standard output; a build that names a
file changes no other, writes over one that is there only by force, and writes exactly what the same
build prints without naming it. So a file keeps its content through any sequence of runs in which
none that names it has force, by whatever path, and whoever reads it reads that content. -/
theorem runs_spare_files (runs : List (List String)) (s : σ) :
    (∀ before args later, runs = before ++ args :: later →
      Spares args (filesAfter before s) ∧
      filesAfter runs s = filesAfter later (after args (filesAfter before s))) ∧
    ∀ f content, content? s f = some content →
      (∀ args ∈ runs, ∀ path force, outputOf? args = some (path, force) →
        file? s path = some f → force = false) →
      content? (filesAfter runs s) f = some content ∧
        (∀ path, file? (filesAfter runs s) path = some f ↔ file? s path = some f) ∧
        ∀ path bytes, file? s path = some f →
          FileStore.read (filesAfter runs s) path = .ok bytes → bytes = content := by
  refine ⟨fun before args later h => ⟨spares_run args _, ?_⟩, fun f content hFile hKeep => ?_⟩
  · rw [h, filesAfter, List.foldl_append, List.foldl_cons]
    rfl
  · obtain ⟨hContent, hPaths⟩ := content?_filesAfter hFile hKeep
    refine ⟨hContent, hPaths, fun path bytes hPath hRead => ?_⟩
    obtain ⟨g, hLeads, hBytes⟩ := LawfulFileStore.exists_of_read hRead
    obtain rfl := Option.some.inj (((hPaths path).2 hPath).symm.trans hLeads)
    exact Option.some.inj (hBytes.symm.trans hContent)

end

/-- A form of one question. -/
def diaryDocument : Json.Value :=
  .object [
    ("title", .string "Diary"),
    ("controls", .array [.object [("type", .string "inputDate"), ("name", .string "day")]])]

/-- What `diaryDocument` is read as. -/
def diaryForm : Form where
  title := "Diary"
  controls := [.question (Field.named "day") .date]

/-- A file with the form and one that is in the way, both in the working directory. -/
def diaryDirectory (form : ByteArray) : Directory where
  working := ⟨["home", "work"]⟩
  files := [(⟨["home", "work", "f.json"]⟩, form), (⟨["home", "work", "old.xml"]⟩, "old".toUTF8)]

/-- A build of the form to a new file succeeds. -/
theorem code_diary {d : Directory} {path : String}
    (hArgs : Invocation.ofArguments? ["-v", "build", "--form", "f.json", "--out", path] =
      some ⟨true, .build ⟨"f.json", .default, .xml, some path, false⟩⟩)
    (hRead : FileStore.read d "f.json" = .ok diaryDocument.compact.toUTF8)
    (hFree : ∀ text, ∃ d', FileStore.deliver d path false text = .ok d') :
    (reportOf ["-v", "build", "--form", "f.json", "--out", path] d).code = 0 := by
  let b : Build := ⟨"f.json", .default, .xml, some path, false⟩
  have hForm : Form.ofJson diaryDocument.compact = .ok diaryForm :=
    (Json.readText_print Form.read .compact diaryDocument).trans rfl
  obtain ⟨doc, hDoc⟩ : ∃ doc, diaryForm.compile .default = .ok doc := ⟨_, rfl⟩
  have hText : b.textOf diaryDocument.compact =
      .ok (Line.ofCompilation diaryForm .default, doc.render) :=
    bind_eq_ok_iff.2 ⟨diaryForm, congrArg _ hForm, bind_eq_ok_iff.2 ⟨doc, congrArg _ hDoc, rfl⟩⟩
  have hPrepare : b.prepare d = .ok ([Line.read "f.json" diaryDocument.compact.utf8ByteSize] ++
      Line.ofCompilation diaryForm .default, doc.render) := by
    rw [Build.prepare, FileStore.textOf_of_read hRead]
    dsimp only
    rw [hText]
  obtain ⟨d', hDeliver⟩ := hFree doc.render
  rw [reportOf, run_of_build hArgs, run_runBuild, hPrepare]
  dsimp only
  rw [hDeliver]
  rfl

/-- The form survives a run that names it by a path around the working directory, and so does the
file in the way; a new file holds what would have been printed. -/
theorem runs_spare_files_diary :
    let form := diaryDocument.compact.toUTF8
    let occupied := ["build", "--form", "f.json", "--out", "old.xml"]
    let free := ["-v", "build", "--form", "f.json", "--out", "/home/work/new.xml"]
    let own := ["build", "--form", "f.json", "--out=../work/f.json"]
    let files := filesAfter [occupied, free, own] (diaryDirectory form)
    file? (diaryDirectory form) "../work/f.json" = file? (diaryDirectory form) "f.json" ∧
      files.find? ⟨["home", "work", "f.json"]⟩ = some form ∧
      files.find? ⟨["home", "work", "old.xml"]⟩ = some "old".toUTF8 ∧
      ∃ verbose log text f,
        (run ["-v", "build", "--form", "f.json"] : StateM Directory (Bool × Report)).run
          (diaryDirectory form) = ((verbose, .success log text), diaryDirectory form) ∧
        file? files "/home/work/new.xml" = some f ∧ content? files f = some text.toUTF8 := by
  intro form occupied free own files
  have hOccupied : outputOf? occupied = some ("old.xml", false) := by decide
  have hFree : outputOf? free = some ("/home/work/new.xml", false) := by decide
  have hMissing : ∀ args ∈ [occupied, free, own], "--force" ∉ args := by decide
  have hLooks : ∀ bytes : ByteArray,
      file? (diaryDirectory bytes) "../work/f.json" = file? (diaryDirectory bytes) "f.json" ∧
      FileStore.read (diaryDirectory bytes) "f.json" = .ok bytes ∧
      FileStore.present (diaryDirectory bytes) "old.xml" = true ∧
      ∀ text, ∃ d', FileStore.deliver (diaryDirectory bytes) "/home/work/new.xml" false text =
        .ok d' :=
    fun _ => ⟨rfl, rfl, rfl, fun _ => ⟨_, rfl⟩⟩
  obtain ⟨hSame, hRead, hPresent, hDeliver⟩ := hLooks form
  obtain ⟨hRuns, hKeep⟩ := runs_spare_files [occupied, free, own] (diaryDirectory form)
  obtain ⟨hFirst, -⟩ := hRuns [] occupied [free, own] rfl
  obtain ⟨hSecond, hFiles⟩ := hRuns [occupied] free [own] rfl
  have hRefused : filesAfter [occupied] (diaryDirectory form) = diaryDirectory form := by
    refine hFirst.failure fun hSuccess => ?_
    exact Bool.false_ne_true ((hFirst.output _ _ hOccupied hSuccess).1 hPresent).1
  rw [hRefused] at hSecond hFiles
  obtain ⟨-, verbose, log, text, hPrinted, f, hReplaced⟩ :=
    hSecond.output _ _ hFree (code_diary (by decide) hRead hDeliver)
  -- the new file was there before the last run, which has no force either
  obtain ⟨-, hLast⟩ := runs_spare_files [own] (after free (diaryDirectory form))
  obtain ⟨hContent, hPaths, -⟩ := hLast f _ hReplaced.content fun args hArgs path force h _ => by
    obtain rfl := List.mem_singleton.1 hArgs
    exact force_eq_false_of_outputOf? h (hMissing _ (by simp))
  have hKept : ∀ place content, (diaryDirectory form).find? place = some content →
      files.find? place = some content := fun place content hFile =>
    (hKeep place content hFile fun args hArgs path force h _ =>
      force_eq_false_of_outputOf? h (hMissing args hArgs)).1
  refine ⟨hSame, hKept _ _ rfl, hKept _ _ rfl, verbose, log, text, f, hPrinted, ?_, ?_⟩
  · exact (congrArg (file? · _) hFiles).trans ((hPaths _).2 hReplaced.file)
  · exact (congrArg (content? · f) hFiles).trans hContent

end FormDesign.Command
