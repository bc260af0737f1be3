import FormDesign.Command.Storage
import FormDesign.Proofs.Outcome

/-!
# Files that paths lead to

A file is not the path that leads to it: the same file may be reached by many paths, by relative
and by absolute ones, and through links where there are any. What the command line relies on is said
of files: a write that succeeds gives a content to the one file that its path leads to, a new one if
the path led to none, and leaves all others as they are. A directory in memory is like that, as
putting a file into it makes no place a directory and none stop being one.

## Main definitions

* `FileView`: the files in a state, which of them a path leads to and what they hold;
* `Replaced`: what a write that succeeds does to the files;
* `LawfulFileStore`: what is relied on about reading and writing.

## Main results

* `Directory.isDirectory_put`: writing a file changes no directory;
* `Directory.target_put_iff`: which place a path leads to does not depend on what is written;
* `Directory.replaced_put`: what writing to a directory in memory does to its files.
-/

namespace FormDesign.Command

/-- What there is to know about the files in a state. -/
class FileView (σ : Type) where
  /-- What tells files apart, whatever paths lead to them. -/
  File : Type
  /-- The file that a path leads to, if it leads to one. -/
  file? : σ → String → Option File
  /-- The content of a file, if there is such a file. -/
  content? : σ → File → Option ByteArray

open FileView

/-- What writing to a path does to the files, where `f` is the file that is written. -/
structure Replaced {σ : Type} [FileView σ] (s s' : σ) (path : String) (content : ByteArray)
    (f : File σ) : Prop where
  /-- The path leads to the file. -/
  file : file? s' path = some f
  content : content? s' f = some content
  /-- Every other file is as it was. -/
  other : ∀ g, g ≠ f → content? s' g = content? s g
  /-- If the path led to a file, that is the one. -/
  same : ∀ g, file? s path = some g → g = f
  /-- Otherwise the file is a new one. -/
  new : file? s path = none → content? s f = none
  /-- Paths lead where they led. Only to a new file there are paths that led to none before. -/
  paths : ∀ p, file? s' p = file? s p ∨
    file? s p = none ∧ file? s' p = some f ∧ content? s f = none

/-- States in which paths lead to files and directories and to nothing else, and reading and writing
do what they say. -/
class LawfulFileStore (σ : Type) [FileStore σ] extends FileView σ where
  /-- Where a path leads to a file, something is present. -/
  present_of_file {s : σ} {path : String} {f : File} :
    file? s path = some f → FileStore.present s path = true
  /-- What is read is the content of the file that the path leads to. -/
  exists_of_read {s : σ} {path : String} {content : ByteArray} :
    FileStore.read s path = .ok content → ∃ f, file? s path = some f ∧ content? s f = some content
  /-- A write that succeeds gives a file its content. -/
  exists_of_write {s s' : σ} {path : String} {content : ByteArray} :
    FileStore.write s path content = .ok s' → ∃ f, Replaced s s' path content f

namespace Directory

variable {d : Directory} {place : Place} {text : String} {content : ByteArray}

/-! ## Directories on the way -/

theorem isDirectory_iff {p : Place} : d.isDirectory p = true ↔
    p.names <+: d.working.names ∨
      ∃ q ∈ d.files.map Prod.fst, q ≠ p ∧ p.names <+: q.names := by
  simp [isDirectory]

/-- Every directory stands in directories. -/
theorem isDirectory_of_isPrefix {p q : Place} (hPrefix : q.names <+: p.names)
    (h : d.isDirectory p = true) : d.isDirectory q = true := by
  rw [isDirectory_iff] at h ⊢
  obtain hWorking | ⟨file, hFile, hOther, hInside⟩ := h
  · exact .inl (hPrefix.trans hWorking)
  · refine .inr ⟨file, hFile, ?_, hPrefix.trans hInside⟩
    -- a file at `q` would have `p` both around it and inside it
    rintro rfl
    refine hOther ?_
    have hNames := hPrefix.eq_of_length_le hInside.length_le
    exact congrArg Place.mk hNames

theorem isDirectory_start (path : Path) : d.isDirectory (d.start path) = true := by
  refine isDirectory_iff.2 (.inl ?_)
  rw [start]
  split_ifs
  · exact List.nil_prefix
  · exact List.prefix_refl _

theorem isDirectory_parent (h : d.isDirectory place = true) : d.isDirectory place.parent = true :=
  isDirectory_of_isPrefix (List.dropLast_prefix _) h

/-- Names that can be followed lead from a directory into one. -/
theorem isDirectory_of_enter {names : List String} {p : Place} (hStart : d.isDirectory place = true)
    (h : d.enter place names = .ok p) : d.isDirectory p = true := by
  -- wherever the names have led so far is a directory, also after a step back
  induction names generalizing place with
  | nil =>
    obtain rfl := Except.ok.inj h
    exact hStart
  | cons name names ih =>
    unfold enter at h
    split_ifs at h with hStay hUp hDirectory
    · exact ih hStart h
    · exact ih (isDirectory_parent hStart) h
    · exact ih hDirectory h

/-- A path that ends with a name has a directory before it. -/
theorem isDirectory_of_locate {path : Path} {around : Place} {name : String}
    (h : d.locate path = .ok (around, some name)) : d.isDirectory around = true := by
  unfold locate at h
  split at h
  next => exact absurd (congrArg Prod.snd (Except.ok.inj h)) (Option.some_ne_none name).symm
  next last hLast =>
    obtain ⟨p, hEnter, h⟩ := bind_eq_ok_iff.1 h
    split_ifs at h with hStay hUp
    · exact absurd (congrArg Prod.snd (Except.ok.inj h)) (Option.some_ne_none name).symm
    · exact absurd (congrArg Prod.snd (Except.ok.inj h)) (Option.some_ne_none name).symm
    · obtain ⟨rfl, -⟩ := Prod.mk.inj (Except.ok.inj h)
      exact isDirectory_of_enter (isDirectory_start path) hEnter

/-! ## Places for files -/

/-- A file can be written where a path ends with a name, no slash follows and no directory is. -/
theorem target_eq_ok_iff : d.target text = .ok place ↔
    ∃ around name, d.locate (Path.ofText text) = .ok (around, some name) ∧
      (Path.ofText text).trailingSlash = false ∧ d.isDirectory (around.child name) = false ∧
      around.child name = place := by
  rw [target]
  refine bind_eq_ok_iff.trans ⟨?_, ?_⟩
  · rintro ⟨⟨around, name⟩, hLocate, h⟩
    cases name with
    | none => cases h
    | some name =>
      dsimp only at h
      split at h
      next => cases h
      next hFree =>
        simp only [Bool.or_eq_true, not_or, Bool.not_eq_true] at hFree
        exact ⟨around, name, hLocate, hFree.1, hFree.2, Except.ok.inj h⟩
  · rintro ⟨around, name, hLocate, hSlash, hDirectory, rfl⟩
    refine ⟨_, hLocate, ?_⟩
    dsimp only
    rw [hSlash, hDirectory]
    rfl

/-- What is read where a file can be written is the file that is there, if there is one. -/
theorem read_of_target (h : d.target text = .ok place) :
    d.read text = (d.find? place).elim (.error .missing) .ok := by
  obtain ⟨around, name, hLocate, hSlash, hDirectory, rfl⟩ := target_eq_ok_iff.1 h
  rw [read, hLocate]
  simp only [ok_bind]
  rw [hDirectory, hSlash]
  cases d.find? (around.child name) <;> rfl

/-- Where a file can be written, what is there is a file. -/
theorem present_of_target (h : d.target text = .ok place) :
    d.present text = (d.find? place).isSome := by
  rw [present, read_of_target h]
  cases d.find? place <;> rfl

/-- What can be read is a file that could be written. -/
theorem exists_target_of_read (h : d.read text = .ok content) :
    ∃ place, d.target text = .ok place ∧ d.find? place = some content := by
  obtain ⟨⟨around, name⟩, hLocate, h⟩ := bind_eq_ok_iff.1 h
  cases name with
  | none => cases h
  | some name =>
    dsimp only at h
    split at h
    next => cases h
    next hFree =>
      cases hFile : d.find? (around.child name) with
      | none =>
        rw [hFile] at h
        cases h
      | some found =>
        rw [hFile] at h
        dsimp only [pure_bind] at h
        split at h
        next => cases h
        next hSlash =>
          obtain rfl := Except.ok.inj h
          exact ⟨_, target_eq_ok_iff.2 ⟨around, name, hLocate, Bool.eq_false_iff.2 hSlash,
            Bool.eq_false_iff.2 hFree, rfl⟩, hFile⟩

/-! ## Writing a file -/

/-- Writing a file makes no place a directory, and none stops being one. -/
theorem isDirectory_put (h : d.target text = .ok place) (p : Place) :
    (d.put place content).isDirectory p = d.isDirectory p := by
  obtain ⟨around, name, hLocate, -, -, rfl⟩ := target_eq_ok_iff.1 h
  have hAround : d.isDirectory around = true := isDirectory_of_locate hLocate
  rw [Bool.eq_iff_iff]
  constructor
  · intro hPut
    rw [isDirectory_iff, put, map_fst_setEntry] at hPut
    obtain hWorking | ⟨q, hMem, hOther, hInside⟩ := hPut
    · exact isDirectory_iff.2 (.inl hWorking)
    split_ifs at hMem
    · exact isDirectory_iff.2 (.inr ⟨q, hMem, hOther, hInside⟩)
    obtain hOld | hNew := List.mem_append.1 hMem
    · exact isDirectory_iff.2 (.inr ⟨q, hOld, hOther, hInside⟩)
    -- whatever is around the new file is around the directory that it was put into
    · obtain rfl := List.mem_singleton.1 hNew
      obtain hSame | hPrefix := List.prefix_concat_iff.1 hInside
      · exact absurd (Place.ext hSame).symm hOther
      · exact isDirectory_of_isPrefix hPrefix hAround
  · intro hBefore
    obtain hWorking | ⟨q, hMem, hq⟩ := isDirectory_iff.1 hBefore
    · exact isDirectory_iff.2 (.inl hWorking)
    refine isDirectory_iff.2 (.inr ⟨q, ?_, hq⟩)
    rw [put, map_fst_setEntry]
    split_ifs
    · exact hMem
    · exact List.mem_append_left _ hMem

/-- Names can be followed to a directory whatever has been written. -/
theorem enter_put_iff (h : d.target text = .ok place) {names : List String} {start p : Place} :
    (d.put place content).enter start names = .ok p ↔ d.enter start names = .ok p := by
  induction names generalizing start with
  | nil => exact Iff.rfl
  | cons name names ih =>
    unfold enter
    rw [isDirectory_put h]
    split_ifs with hStay hUp hDirectory
    · exact ih
    · exact ih
    · exact ih
    -- a name that cannot be followed may be refused for another reason than before
    all_goals exact Iff.rfl

theorem locate_put_iff (h : d.target text = .ok place) {path : Path}
    {found : Place × Option String} :
    (d.put place content).locate path = .ok found ↔ d.locate path = .ok found := by
  have hStart : (d.put place content).start path = d.start path := rfl
  unfold locate
  rw [hStart]
  cases path.names.getLast? with
  | none => exact Iff.rfl
  | some name => simp only [bind_eq_ok_iff, enter_put_iff h]

/-- Which place a path leads to does not depend on what is written. -/
theorem target_put_iff (h : d.target text = .ok place) {path : String} {p : Place} :
    (d.put place content).target path = .ok p ↔ d.target path = .ok p := by
  simp only [target_eq_ok_iff, locate_put_iff h, isDirectory_put h]

/-! ## The files in a directory -/

/-- The place of the file that a path leads to, if there is one. -/
def fileAt? (d : Directory) (path : String) : Option Place :=
  d.target path |>.toOption.filter fun place => (d.find? place).isSome

theorem fileAt?_eq_some_iff {path : String} {p : Place} :
    d.fileAt? path = some p ↔ d.target path = .ok p ∧ (d.find? p).isSome = true := by
  rw [fileAt?, Option.filter_eq_some_iff, toOption_eq_some_iff]

/-- Many paths lead to one file, and none through a file or a directory that is not there. -/
example :
    let form : Place := ⟨["home", "work", "f.json"]⟩
    let d : Directory := ⟨⟨["home", "work"]⟩, [(form, .empty)]⟩
    ["f.json", "./f.json", "../work//f.json", "/home/work/f.json", "../../f.json", "f.json/",
        "f.json/../f.json", "none/../f.json"].map d.fileAt? =
      [some form, some form, some form, some form, none, none, none, none] := by
  decide

/-- Where a path leads to no file but a file can be written, there is none. -/
theorem find?_eq_none_of_fileAt? (h : d.target text = .ok place) (hNone : d.fileAt? text = none) :
    d.find? place = none := by
  by_contra hThere
  have hFile : d.fileAt? text = some place :=
    fileAt?_eq_some_iff.2 ⟨h, Option.isSome_iff_ne_none.2 hThere⟩
  cases hFile.symm.trans hNone

/-- A file has been written where its path leads, and the others are where they were. -/
theorem fileAt?_put_eq_some_iff (h : d.target text = .ok place) {path : String} {p : Place} :
    (d.put place content).fileAt? path = some p ↔
      d.target path = .ok p ∧ (p = place ∨ (d.find? p).isSome = true) := by
  rw [fileAt?_eq_some_iff, target_put_iff h, find?_put]
  refine and_congr_right fun _ => ?_
  split_ifs with hPlace <;> simp [hPlace]

/-- In a directory in memory, places tell files apart. -/
instance : FileView Directory where
  File := Place
  file? := fileAt?
  content? := find?

/-- Writing to a directory in memory gives the file at one place a content. -/
theorem replaced_put (h : d.target text = .ok place) :
    Replaced d (d.put place content) text content place where
  file := (fileAt?_put_eq_some_iff h).2 ⟨h, .inl rfl⟩
  content := by
    show (d.put place content).find? place = some content
    rw [find?_put, if_pos rfl]
  other g hOther := by
    show (d.put place content).find? g = d.find? g
    rw [find?_put, if_neg hOther]
  same g hFile := by
    obtain ⟨hTarget, -⟩ := fileAt?_eq_some_iff.1 hFile
    exact Except.ok.inj (hTarget.symm.trans h)
  new hNone := by
    show d.find? place = none
    exact find?_eq_none_of_fileAt? h hNone
  paths p := by
    show (d.put place content).fileAt? p = d.fileAt? p ∨ d.fileAt? p = none ∧
      (d.put place content).fileAt? p = some place ∧ d.find? place = none
    cases hBefore : d.fileAt? p with
    | some q =>
      obtain ⟨hTarget, hThere⟩ := fileAt?_eq_some_iff.1 hBefore
      exact .inl ((fileAt?_put_eq_some_iff h).2 ⟨hTarget, .inr hThere⟩)
    | none =>
      cases hAfter : (d.put place content).fileAt? p with
      | none => exact .inl rfl
      | some q =>
        -- a file that was not there is the one that has been written
        obtain ⟨hTarget, rfl | hThere⟩ := (fileAt?_put_eq_some_iff h).1 hAfter
        · exact .inr ⟨rfl, rfl, find?_eq_none_of_fileAt? hTarget hBefore⟩
        · cases hBefore.symm.trans (fileAt?_eq_some_iff.2 ⟨hTarget, hThere⟩)

/-- A directory in memory does what is relied on. -/
instance : LawfulFileStore Directory where
  present_of_file hFile := by
    obtain ⟨hTarget, hThere⟩ := fileAt?_eq_some_iff.1 hFile
    exact (present_of_target hTarget).trans hThere
  exists_of_read hRead := by
    obtain ⟨place, hTarget, hFile⟩ := exists_target_of_read hRead
    exact ⟨place, fileAt?_eq_some_iff.2 ⟨hTarget, hFile ▸ rfl⟩, hFile⟩
  exists_of_write hWrite := by
    obtain ⟨place, hTarget, hPut⟩ := bind_eq_ok_iff.1 hWrite
    obtain rfl := Except.ok.inj hPut
    exact ⟨place, replaced_put hTarget⟩

end Directory

end FormDesign.Command
