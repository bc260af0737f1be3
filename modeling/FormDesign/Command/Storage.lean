import FormDesign.Entries
import FormDesign.Text.Segments

/-!
# Storage

Where the command line reads and writes files: what it needs of a place that keeps them, states of
files as such places, and one such state that is kept in memory. In memory there are directories
with files in them, and relative paths begin in one of the directories. A path is followed step by
step; every step but the last must lead into a directory that is there, even if the next step leads
back.

* `Directory.find?_put`: what is found after a file has been put into a directory.
-/

namespace FormDesign.Command

/-- Why a file cannot be read or written. -/
inductive StorageFault
  | missing
  | directory
  | noDirectory
  | encoding
  | other (reason : String)
  deriving DecidableEq

/-- The words for a fault. -/
def StorageFault.message : StorageFault → String
  | missing => "No such file or directory (os error 2)"
  | directory => "Is a directory (os error 21)"
  | noDirectory => "Not a directory (os error 20)"
  | encoding => "stream did not contain valid UTF-8"
  | other reason => reason

/-- A place that keeps files under paths. -/
class Storage (m : Type → Type) where
  /-- The content of a file. -/
  read : String → m (Except StorageFault ByteArray)
  /-- Whether there is a file or a directory. -/
  present : String → m Bool
  /-- Gives a file a content, in place of the one it has. -/
  write : String → ByteArray → m (Except StorageFault Unit)

/-- States that hold files. A write happens as a whole or not at all, so one that fails leads to no
other state. -/
class FileStore (σ : Type) where
  /-- The content of the file that a path leads to. -/
  read : σ → String → Except StorageFault ByteArray
  /-- Whether a path leads to a file or a directory. -/
  present : σ → String → Bool
  /-- The state once the file that a path names has a content. -/
  write : σ → String → ByteArray → Except StorageFault σ

/-- States that hold files are a place that keeps them. -/
instance {σ : Type} [FileStore σ] : Storage (StateM σ) where
  read path := do return FileStore.read (← get) path
  present path := do return FileStore.present (← get) path
  write path content := modifyGet fun s =>
    match FileStore.write s path content with
    | .ok s' => (.ok (), s')
    | .error fault => (.error fault, s)

/-! ## Paths -/

/-- A place: the names to follow from the root of all directories. -/
@[ext]
structure Place where
  names : List String
  deriving DecidableEq

namespace Place

/-- The root of all directories. -/
def root : Place := ⟨[]⟩

/-- The place with a name inside this place. -/
def child (place : Place) (name : String) : Place :=
  ⟨place.names ++ [name]⟩

/-- The directory around a directory. The root is around itself. -/
def parent (place : Place) : Place :=
  ⟨place.names.dropLast⟩

end Place

/-- A path: whether it begins at the root, its names, and whether a slash follows the last of
them. -/
structure Path where
  absolute : Bool
  names : List String
  trailingSlash : Bool

/-- The path that a text is. Slashes next to one another count as one. -/
def Path.ofText (text : String) : Path where
  absolute := text.toList.head? = some '/'
  names := (Text.segments '/' text).filter fun name => name ≠ ""
  trailingSlash := text.toList.getLast? = some '/'

/-! ## A directory in memory -/

/-- The files that there are, and the directory in which runs take place. There are no links, so a
file has one place, but many paths may lead to it. -/
structure Directory where
  /-- The working directory, where paths begin that do not begin at the root. -/
  working : Place
  files : List (Place × ByteArray)

namespace Directory

/-- The content of the file at a place. -/
def find? (d : Directory) (place : Place) : Option ByteArray :=
  (d.files.find? fun file => file.1 = place).map Prod.snd

/-- Whether a place is a directory: one on the way to the working directory or to a file. -/
def isDirectory (d : Directory) (place : Place) : Bool :=
  place.names.isPrefixOf d.working.names || d.files.any fun file =>
    file.1 ≠ place && place.names.isPrefixOf file.1.names

/-- Where a path begins. -/
def start (d : Directory) (path : Path) : Place :=
  if path.absolute then .root else d.working

/-- Follows names that all lead into directories. -/
def enter (d : Directory) (place : Place) : List String → Except StorageFault Place
  | [] => .ok place
  | name :: names =>
    if name = "." then d.enter place names
    else if name = ".." then d.enter place.parent names
    else if d.isDirectory (place.child name) then d.enter (place.child name) names
    else if (d.find? (place.child name)).isSome then .error .noDirectory
    else .error .missing

/-- The directory that a path ends in, and the name in it that the path ends with. Without a name
the path ends with the directory itself. -/
def locate (d : Directory) (path : Path) : Except StorageFault (Place × Option String) :=
  match path.names.getLast? with
  | none => .ok (d.start path, none)
  | some name => do
    let place ← d.enter (d.start path) path.names.dropLast
    if name = "." then return (place, none)
    else if name = ".." then return (place.parent, none)
    else return (place, some name)

/-- The content of the file that a path leads to. Behind a slash only a directory can stand. -/
def read (d : Directory) (text : String) : Except StorageFault ByteArray := do
  let path := Path.ofText text
  match ← d.locate path with
  | (_, none) => throw .directory
  | (place, some name) =>
    if d.isDirectory (place.child name) then throw .directory
    match d.find? (place.child name) with
    | none => throw .missing
    | some content => if path.trailingSlash then throw .noDirectory else return content

/-- Whether a path leads to a file or a directory. -/
def present (d : Directory) (text : String) : Bool :=
  match d.read text with
  | .ok _ | .error .directory => true
  | .error _ => false

/-- Replaces the content of the file at a place, or adds a file. -/
def put (d : Directory) (place : Place) (content : ByteArray) : Directory :=
  { d with files := setEntry place content d.files }

/-- The place of the file that a path would be written to. Its directory must be there; a path that
ends with a slash names no file. -/
def target (d : Directory) (text : String) : Except StorageFault Place := do
  let path := Path.ofText text
  match ← d.locate path with
  | (_, none) => throw .directory
  | (place, some name) =>
    if path.trailingSlash || d.isDirectory (place.child name) then throw .directory
    return place.child name

/-- Writes the file that a path names. -/
def write (d : Directory) (text : String) (content : ByteArray) :
    Except StorageFault Directory := do
  return d.put (← d.target text) content

/-- What is found after a file has been put into a directory. -/
theorem find?_put (d : Directory) (place : Place) (content : ByteArray) (p : Place) :
    (d.put place content).find? p = if p = place then some content else d.find? p := by
  simp only [find?, put, find?_setEntry]
  split <;> rfl

end Directory

/-- A directory in memory holds files. -/
instance : FileStore Directory where
  read := Directory.read
  present := Directory.present
  write := Directory.write

end FormDesign.Command
