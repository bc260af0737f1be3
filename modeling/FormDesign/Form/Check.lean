import FormDesign.Control
import FormDesign.Defect
import FormDesign.Text.Blank
import FormDesign.Text.Name

/-!
# Checking forms

A form can be compiled when every control but a branch has a name that an element may have, no two
controls of a scope share a name, and no bounds have their minimum above their maximum. The top
level is a scope and so is the inside of a group. The arms of a branch have no scope of their own:
their controls belong to the scope of the branch.

The check walks the form in the order of its text and reports the first fault. It carries the names
that are taken in the scope, the last one first; their number is the position of the next control.
-/

namespace FormDesign

/-- The path of a scope as it is reported; the top level is the root. -/
def shownPath (path : String) : String :=
  if path.isEmpty then "/" else path

/-- Checks the name of the next control of a scope in which `taken` are taken. -/
def checkName (path : String) (taken : List String) (kind : Kind) (name : String) :
    Except Defect Unit :=
  if Text.isBlank name then .error (.missingName s!"{path}/{kind.tag}[{taken.length}]")
  else if ¬ Text.isName name then .error (.invalidName (shownPath path) name)
  else if name ∈ taken then .error (.duplicateName (shownPath path) name)
  else .ok ()

/-- Checks that a minimum is not above its maximum. -/
def checkBounds (path : String) : Option Bounds → Except Defect Unit
  | some bounds =>
    -- A bound that is not a number is above nothing and below nothing, so it is let through.
    if bounds.min > bounds.max then .error (.invalidBounds path bounds.min bounds.max) else .ok ()
  | none => .ok ()

namespace Control

mutual

/-- Checks a control of the scope `path` in which `taken` are taken, and answers what is taken after
it. -/
def check (path : String) (taken : List String) : Control → Except Defect (List String)
  | branch _ arms => checkArms path taken arms
  | group name _ children => do
    checkName path taken .group name
    -- The inside of a group is a scope of its own, in which nothing is taken yet.
    let _ ← checkAll s!"{path}/{name}" [] children
    return name :: taken
  | question field input => do
    checkName path taken input.kind field.name
    checkBounds s!"{path}/{field.name}" input.bounds?
    return field.name :: taken

/-- Checks controls one after another. -/
def checkAll (path : String) (taken : List String) : List Control → Except Defect (List String)
  | [] => .ok taken
  | control :: controls => do
    let taken ← check path taken control
    checkAll path taken controls

/-- Checks the controls of arms one after another. -/
def checkArms (path : String) (taken : List String) :
    List (Arm Control) → Except Defect (List String)
  | [] => .ok taken
  | ⟨_, children⟩ :: arms => do
    let taken ← checkAll path taken children
    checkArms path taken arms

end

end Control

/-- Checks a form. -/
def Form.check (form : Form) : Except Defect Unit := do
  let _ ← Control.checkAll "" [] form.controls

end FormDesign
