import FormDesign.Command

/-!
# Runs on states that hold files

What the steps of a run come to on a state that holds files. Reading says a text and changes
nothing; writing leads to one other state, or to none; and what a build makes of its form is known
before it writes. So each command is described by what is read, what is made of it and where it
goes, and what follows about runs does not go through the steps again.

## Main definitions

* `FileStore.textOf`, `FileStore.deliver`: what reading and writing come to;
* `Build.prepare`, `checkReport`: what a build and a check make of a form.

## Main results

* `run_readFile`, `run_writeFile`: reading and writing;
* `run_runBuild`, `run_runCheck`: a build, once it is known what it makes of its form, and a check;
* `run_of_build`, `run_of_check`: runs that ask for a build or for a check.
-/

namespace FormDesign.Command

variable {σ : Type} [FileStore σ]

/-! ## Reading and writing -/

/-- What follows a step goes on from where the step leads. -/
theorem run_bind_of_run {σ α β : Type} {x : StateM σ α} {s s' : σ} {a : α} (h : x.run s = (a, s'))
    (f : α → StateM σ β) : (x >>= f).run s = (f a).run s' := by
  rw [StateT.run_bind, h]
  rfl

/-- The text of a file, or why it cannot be read. -/
def FileStore.textOf (s : σ) (path : String) : Except String String :=
  match FileStore.read s path with
  | .error fault => .error s!"failed to read {path}: {fault.message}"
  | .ok bytes =>
    match String.fromUTF8? bytes with
    | some text => .ok text
    | none => .error s!"failed to read {path}: {StorageFault.encoding.message}"

/-- What a build makes of its form before any file is touched: the log and the text of the document,
or the report of the failure. -/
def Build.prepare (b : Build) (s : σ) : Except Report (List Line × String) :=
  match FileStore.textOf s b.form with
  | .error reason => .error (.fail [] reason)
  | .ok content =>
    let log := [Line.read b.form content.utf8ByteSize]
    match b.textOf content with
    | .error failure => .error (.fail log failure.message)
    | .ok (lines, text) => .ok (log ++ lines, text)

/-- What a check does with the text of a form. -/
def checkReport (path content : String) : Report :=
  let log := [Line.read path content.utf8ByteSize]
  match checkText content with
  | .error failure => .fail log failure.message
  | .ok () => .success log "ok\n"

/-- What writing a document comes to: the state with the document in it, or why it is not
written. -/
def FileStore.deliver (s : σ) (path : String) (force : Bool) (text : String) : Except String σ :=
  if !force && FileStore.present s path then
    .error s!"{path} already exists; rerun with --force to overwrite"
  else
    (FileStore.write s path text.toUTF8).mapError StorageFault.message

section

variable {s : σ} {path text : String}

/-- Reading a file changes none. -/
theorem run_readFile (path : String) (s : σ) :
    (readFile path : StateM σ (Except String String)).run s = (FileStore.textOf s path, s) := by
  have hRead : (Storage.read path : StateM σ (Except StorageFault ByteArray)).run s =
      (FileStore.read s path, s) := rfl
  rw [readFile, run_bind_of_run hRead, FileStore.textOf]
  cases FileStore.read s path with
  | error fault => rfl
  | ok bytes =>
    dsimp only
    cases String.fromUTF8? bytes <;> rfl

/-- A file that holds a text is read as the text. -/
theorem FileStore.textOf_of_read (h : FileStore.read s path = .ok text.toUTF8) :
    FileStore.textOf s path = .ok text := by
  have hText : String.fromUTF8? text.toUTF8 = some text := dif_pos text.isValidUTF8
  rw [textOf, h]
  dsimp only
  rw [hText]

/-- Writing to a state leads to another state, or fails and leads nowhere. -/
theorem run_write (path : String) (content : ByteArray) (s : σ) :
    (Storage.write path content : StateM σ (Except StorageFault Unit)).run s =
      match FileStore.write s path content with
      | .ok s' => (.ok (), s')
      | .error fault => (.error fault, s) :=
  rfl

/-- Writing a document changes the files as they are changed where it goes, or not at all. -/
theorem run_writeFile (path : String) (force : Bool) (text : String) (s : σ) :
    (writeFile path force text : StateM σ (Except String Unit)).run s =
      match FileStore.deliver s path force text with
      | .ok s' => (.ok (), s')
      | .error reason => (.error reason, s) := by
  have hPresent : (Storage.present path : StateM σ Bool).run s = (FileStore.present s path, s) :=
    rfl
  rw [writeFile, FileStore.deliver]
  cases force with
  | true =>
    simp only [Bool.not_true, Bool.false_eq_true, if_false, Bool.false_and, StateT.run_bind,
      run_write]
    cases FileStore.write s path text.toUTF8 <;> rfl
  | false =>
    simp only [Bool.not_false, if_true, Bool.true_and, run_bind_of_run hPresent]
    cases FileStore.present s path with
    | true => rfl
    | false =>
      simp only [Bool.false_eq_true, if_false, StateT.run_bind, run_write]
      cases FileStore.write s path text.toUTF8 <;> rfl

/-- A failure before any file is touched is reported as one. -/
theorem Build.code_of_prepare {b : Build} {report : Report} (h : b.prepare s = .error report) :
    report.code = 1 := by
  unfold prepare at h
  split at h
  next => cases h; rfl
  next =>
    dsimp only at h
    split at h
    next => cases h; rfl
    next => cases h

/-- A build, once it is known what it makes of its form. -/
theorem run_runBuild (b : Build) (s : σ) :
    (runBuild b : StateM σ Report).run s =
      match b.prepare s, b.out with
      | .error report, _ => (report, s)
      | .ok (log, text), none => (.success log text, s)
      | .ok (log, text), some path =>
        match FileStore.deliver s path b.force text with
        | .ok s' => (.success (log ++ [.wrote path]) s!"Wrote {path}\n", s')
        | .error reason => (.fail log reason, s) := by
  rw [runBuild, run_bind_of_run (run_readFile b.form s), Build.prepare]
  cases FileStore.textOf s b.form with
  | error reason => rfl
  | ok content =>
    dsimp only
    cases b.textOf content with
    | error failure => rfl
    | ok result =>
      obtain ⟨lines, text⟩ := result
      cases b.out with
      | none => rfl
      | some path =>
        dsimp only
        rw [StateT.run_bind, run_writeFile]
        cases FileStore.deliver s path b.force text <;> rfl

/-- A check, once its form has been read. -/
theorem run_runCheck (path : String) (s : σ) :
    (runCheck path : StateM σ Report).run s =
      match FileStore.textOf s path with
      | .ok content => (checkReport path content, s)
      | .error reason => (.fail [] reason, s) := by
  rw [runCheck, run_bind_of_run (run_readFile path s)]
  cases FileStore.textOf s path with
  | error reason => rfl
  | ok content =>
    dsimp only
    rw [checkReport]
    cases checkText content <;> rfl

end

/-! ## Runs of the command line -/

section

variable {args : List String} {verbose : Bool}

/-- What a build does is done to the files by a run that asks for it. -/
theorem run_of_build {b : Build} (h : Invocation.ofArguments? args = some ⟨verbose, .build b⟩)
    (s : σ) : (run args : StateM σ (Bool × Report)).run s =
      ((verbose, ((runBuild b : StateM σ Report).run s).1),
        ((runBuild b : StateM σ Report).run s).2) := by
  rw [run, h]
  rfl

/-- What a check does is done by a run that asks for it. -/
theorem run_of_check {path : String}
    (h : Invocation.ofArguments? args = some ⟨verbose, .check path⟩) (s : σ) :
    (run args : StateM σ (Bool × Report)).run s =
      ((verbose, ((runCheck path : StateM σ Report).run s).1),
        ((runCheck path : StateM σ Report).run s).2) := by
  rw [run, h]
  rfl

end

end FormDesign.Command
