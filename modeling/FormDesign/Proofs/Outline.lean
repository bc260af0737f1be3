import FormDesign.Document

/-!
# Outlines

The outline of a form is the forest of its questions and groups: the controls of every arm stand
in the place of their branch, in order, and each question keeps the conditions of the arms around
it. Blank conditions are left out, as they never count.

The check and the document of a form are functions of its outline, so that what holds of them is
proved by induction on outlines, where there are no branches and no arms.

## Main definitions

* `Outline`, `Form.outline`;
* `Outline.fragment` and `Outline.check`, the counterparts of `Control.fragments` and
  `Control.checkAll`;
* `Form.gather` and `Outline.gather`: what the questions and groups of a form give, in order.

## Main results

* `gather_outline`: the outline of a form has its questions and groups, all of them and in order;
* `fragment_outline`: what a form contributes to its document is what its outline does;
* `check_outline`: a form passes its check exactly when its outline does.
-/

namespace FormDesign

/-- The members of a scope, the first of them and then the rest. -/
inductive Outline
  | done
  /-- A question under the conditions of the arms around it, the outermost first. -/
  | question (conditions : List String) (field : Field) (input : Input) (rest : Outline)
  /-- A group, with the members of the scope inside it. -/
  | group (name : String) (label : Option LocalizedText) (inside rest : Outline)

namespace Control

mutual

/-- The members that a control is, followed by `rest`. -/
def outline (conditions : List String) (rest : Outline) : Control → Outline
  | group name label children => .group name label (outlines conditions .done children) rest
  | branch _ arms => armOutlines conditions rest arms
  | question field input => .question conditions field input rest

/-- The members that controls are, one after another, followed by `rest`. -/
def outlines (conditions : List String) (rest : Outline) : List Control → Outline
  | [] => rest
  | control :: controls => outline conditions (outlines conditions rest controls) control

/-- The members that the controls of arms are, followed by `rest`. -/
def armOutlines (conditions : List String) (rest : Outline) : List (Arm Control) → Outline
  | [] => rest
  | ⟨own, children⟩ :: arms =>
    outlines (conditions ++ own.filter fun c => !Text.isBlank c)
      (armOutlines conditions rest arms) children

end

end Control

/-- The outline of a form. -/
def Form.outline (form : Form) : Outline :=
  Control.outlines [] .done form.controls

/-! ## Questions and groups in order -/

section

variable {α : Type}

namespace Control

mutual

/-- What the questions and groups of a control give, a group before those inside it. -/
def gather (ofQuestion : Field → Input → List α)
    (ofGroup : String → Option LocalizedText → List α) : Control → List α
  | group name label children => ofGroup name label ++ gatherAll ofQuestion ofGroup children
  | branch _ arms => gatherArms ofQuestion ofGroup arms
  | question field input => ofQuestion field input

/-- What controls give one after another. -/
def gatherAll (ofQuestion : Field → Input → List α)
    (ofGroup : String → Option LocalizedText → List α) : List Control → List α
  | [] => []
  | control :: controls =>
    gather ofQuestion ofGroup control ++ gatherAll ofQuestion ofGroup controls

/-- What the controls of arms give one after another. -/
def gatherArms (ofQuestion : Field → Input → List α)
    (ofGroup : String → Option LocalizedText → List α) : List (Arm Control) → List α
  | [] => []
  | ⟨_, children⟩ :: arms =>
    gatherAll ofQuestion ofGroup children ++ gatherArms ofQuestion ofGroup arms

end

end Control

/-- What the questions and groups of a form give, in order. -/
def Form.gather (ofQuestion : Field → Input → List α)
    (ofGroup : String → Option LocalizedText → List α) (form : Form) : List α :=
  Control.gatherAll ofQuestion ofGroup form.controls

variable (ofQuestion : Field → Input → List α) (ofGroup : String → Option LocalizedText → List α)

/-- What the questions and groups of an outline give, in order. -/
def Outline.gather : Outline → List α
  | done => []
  | question _ field input rest => ofQuestion field input ++ rest.gather
  | group name label inside rest => ofGroup name label ++ inside.gather ++ rest.gather

mutual

/-- What a control is flattened to gives what the control does. -/
theorem gather_control (conditions : List String) (rest : Outline) : ∀ control : Control,
    (control.outline conditions rest).gather ofQuestion ofGroup =
      control.gather ofQuestion ofGroup ++ rest.gather ofQuestion ofGroup
  | .group name label children => by
    rw [Control.outline, Outline.gather, Control.gather, gather_controls, Outline.gather,
      List.append_nil]
  | .branch _ arms => by
    rw [Control.outline, Control.gather]
    exact gather_arms conditions rest arms
  | .question field input => by rw [Control.outline, Outline.gather, Control.gather]

/-- What controls are flattened to gives what they do, one after another. -/
theorem gather_controls (conditions : List String) (rest : Outline) :
    ∀ controls : List Control,
      (Control.outlines conditions rest controls).gather ofQuestion ofGroup =
        Control.gatherAll ofQuestion ofGroup controls ++ rest.gather ofQuestion ofGroup
  | [] => by rw [Control.outlines, Control.gatherAll, List.nil_append]
  | control :: controls => by
    rw [Control.outlines, Control.gatherAll, gather_control, gather_controls, List.append_assoc]

/-- What arms are flattened to gives what they do, whatever their conditions. -/
theorem gather_arms (conditions : List String) (rest : Outline) :
    ∀ arms : List (Arm Control),
      (Control.armOutlines conditions rest arms).gather ofQuestion ofGroup =
        Control.gatherArms ofQuestion ofGroup arms ++ rest.gather ofQuestion ofGroup
  | [] => by rw [Control.armOutlines, Control.gatherArms, List.nil_append]
  | ⟨_, children⟩ :: arms => by
    rw [Control.armOutlines, Control.gatherArms, gather_controls, gather_arms, List.append_assoc]

end

/-- The outline of a form has its questions and groups, all of them and in order. -/
theorem gather_outline (form : Form) :
    form.outline.gather ofQuestion ofGroup = form.gather ofQuestion ofGroup := by
  rw [Form.outline, gather_controls, Outline.gather, List.append_nil, Form.gather]

end

/-! ## Fragments -/

namespace Fragment

@[simp] theorem inst_append (a b : Fragment) : (a ++ b).inst = a.inst ++ b.inst := rfl

@[simp] theorem body_append (a b : Fragment) : (a ++ b).body = a.body ++ b.body := rfl

@[simp] theorem binds_append (a b : Fragment) : (a ++ b).binds = a.binds ++ b.binds := rfl

@[simp] theorem texts_append (a b : Fragment) : (a ++ b).texts = a.texts ++ b.texts := rfl

@[simp] theorem inst_empty : empty.inst = [] := rfl

@[simp] theorem body_empty : empty.body = [] := rfl

@[simp] theorem binds_empty : empty.binds = [] := rfl

@[simp] theorem texts_empty : empty.texts = [] := rfl

/-- Fragments are equal when their four parts are. -/
theorem ext_parts {a b : Fragment} (inst : a.inst = b.inst) (body : a.body = b.body)
    (binds : a.binds = b.binds) (texts : a.texts = b.texts) : a = b := by
  cases a
  cases b
  simp_all

/-- Contributions may be put together in any grouping. -/
theorem append_assoc (a b c : Fragment) : a ++ b ++ c = a ++ (b ++ c) := by
  apply ext_parts <;> simp

@[simp]
theorem empty_append (a : Fragment) : empty ++ a = a := by
  apply ext_parts <;> simp

@[simp]
theorem append_empty (a : Fragment) : a ++ empty = a := by
  apply ext_parts <;> simp

end Fragment

namespace Outline

/-- What the members of a scope contribute to a document. -/
def fragment (quote : String → String) (refs : BodyRefs) (scope : Scope) : Outline → Fragment
  | done => .empty
  | question conditions field input rest =>
    field.fragment quote refs { scope with conditions } input ++ rest.fragment quote refs scope
  | group name label inside rest =>
    .group quote scope name label (inside.fragment quote refs (scope.group name)) ++
      rest.fragment quote refs scope

/-- Members bring their own conditions, so those of the scope do not count. -/
theorem fragment_arm (quote : String → String) (refs : BodyRefs) (scope : Scope)
    (conditions : List String) (o : Outline) :
    o.fragment quote refs (scope.arm conditions) = o.fragment quote refs scope := by
  -- conditions and the name of a group do not meet, so they may be added in either order
  have group_arm : ∀ (s : Scope) (name : String),
      (s.arm conditions).group name = (s.group name).arm conditions := fun _ _ => rfl
  induction o generalizing scope with
  | done => rfl
  | question own field input rest ih =>
    simp only [fragment, ih]
    rfl
  | group name label inside rest ihInside ihRest =>
    simp only [fragment, group_arm, ihInside, ihRest]
    rfl

end Outline

mutual

/-- What a control contributes, followed by what `rest` does. -/
theorem fragment_append_outline (quote : String → String) (refs : BodyRefs) (scope : Scope)
    (rest : Outline) : ∀ control : Control,
    control.fragment quote refs scope ++ rest.fragment quote refs scope =
      (control.outline scope.conditions rest).fragment quote refs scope
  | .group name label children => by
    -- nothing follows the last control inside the group
    have inside := fragments_append_outlines quote refs (scope.group name) .done children
    rw [Outline.fragment, Fragment.append_empty] at inside
    rw [Control.fragment, Control.outline, Outline.fragment, inside]
    rfl
  | .branch _ arms => by
    rw [Control.fragment, Control.outline]
    exact armFragments_append_outlines quote refs scope rest arms
  | .question field input => by
    rw [Control.fragment, Control.outline, Outline.fragment]

/-- What controls contribute, followed by what `rest` does. -/
theorem fragments_append_outlines (quote : String → String) (refs : BodyRefs) (scope : Scope)
    (rest : Outline) : ∀ controls : List Control,
    Control.fragments quote refs scope controls ++ rest.fragment quote refs scope =
      (Control.outlines scope.conditions rest controls).fragment quote refs scope
  | [] => by rw [Control.fragments, Control.outlines, Fragment.empty_append]
  | control :: controls => by
    -- for the first control, the outline of the later ones is what follows
    rw [Control.fragments, Control.outlines, Fragment.append_assoc,
      fragments_append_outlines quote refs scope rest controls]
    exact fragment_append_outline quote refs scope _ control

/-- What the controls of arms contribute, followed by what `rest` does. -/
theorem armFragments_append_outlines (quote : String → String) (refs : BodyRefs) (scope : Scope)
    (rest : Outline) : ∀ arms : List (Arm Control),
    Control.armFragments quote refs scope arms ++ rest.fragment quote refs scope =
      (Control.armOutlines scope.conditions rest arms).fragment quote refs scope
  | [] => by rw [Control.armFragments, Control.armOutlines, Fragment.empty_append]
  | ⟨own, children⟩ :: arms => by
    -- what follows the arm is not under its conditions, but then it does not read them either
    rw [Control.armFragments, Control.armOutlines, Fragment.append_assoc,
      armFragments_append_outlines quote refs scope rest arms,
      ← Outline.fragment_arm quote refs scope own (Control.armOutlines _ _ _),
      fragments_append_outlines quote refs (scope.arm own) _ children, Outline.fragment_arm]
    rfl

end

/-- What a form contributes to its document is what its outline does. -/
theorem fragment_outline (quote : String → String) (form : Form) (options : Options) :
    form.fragment quote options =
      form.outline.fragment quote options.bodyRefs (.top options.instanceRoot) := by
  have h := fragments_append_outlines quote options.bodyRefs (.top options.instanceRoot) .done
    form.controls
  rw [Outline.fragment, Fragment.append_empty] at h
  exact h

/-! ## Checks -/

/-- Nothing is done behind a check that answers what it has. -/
theorem bind_ok {ε α : Type} (x : Except ε α) : (x >>= fun a => Except.ok a) = x :=
  bind_pure x

namespace Outline

/-- Checks the members of a scope in which `taken` are taken, and answers what is taken after
them. -/
def check (path : String) (taken : List String) : Outline → Except Defect (List String)
  | done => .ok taken
  | question _ field input rest => do
    checkName path taken input.kind field.name
    checkBounds s!"{path}/{field.name}" input.bounds?
    rest.check path (field.name :: taken)
  | group name _ inside rest => do
    checkName path taken .group name
    let _ ← inside.check s!"{path}/{name}" []
    rest.check path (name :: taken)

end Outline

mutual

/-- The check of a control, followed by that of `rest`. -/
theorem check_bind_outline (conditions : List String) (path : String) (rest : Outline) :
    ∀ (taken : List String) (control : Control),
      (control.check path taken >>= fun taken => rest.check path taken) =
        (control.outline conditions rest).check path taken
  | taken, .group name label children => by
    -- the scope inside starts with no name taken, and what it takes is dropped at its end
    have inside := checkAll_bind_outlines conditions s!"{path}/{name}" .done [] children
    simp only [Outline.check, bind_ok] at inside
    simp only [Control.check, Control.outline, Outline.check, ← inside, bind_assoc, pure_bind]
  | taken, .branch _ arms => by
    rw [Control.check, Control.outline]
    exact checkArms_bind_outlines conditions path rest taken arms
  | taken, .question field input => by
    simp only [Control.check, Control.outline, Outline.check, bind_assoc, pure_bind]

/-- The check of controls, followed by that of `rest`. -/
theorem checkAll_bind_outlines (conditions : List String) (path : String) (rest : Outline) :
    ∀ (taken : List String) (controls : List Control),
      (Control.checkAll path taken controls >>= fun taken => rest.check path taken) =
        (Control.outlines conditions rest controls).check path taken
  | taken, [] => by rw [Control.checkAll, Control.outlines]; rfl
  | taken, control :: controls => by
    simp only [Control.checkAll, Control.outlines, bind_assoc,
      checkAll_bind_outlines conditions path rest _ controls]
    exact check_bind_outline conditions path _ taken control

/-- The check of the controls of arms, followed by that of `rest`. -/
theorem checkArms_bind_outlines (conditions : List String) (path : String) (rest : Outline) :
    ∀ (taken : List String) (arms : List (Arm Control)),
      (Control.checkArms path taken arms >>= fun taken => rest.check path taken) =
        (Control.armOutlines conditions rest arms).check path taken
  | taken, [] => by rw [Control.checkArms, Control.armOutlines]; rfl
  | taken, ⟨own, children⟩ :: arms => by
    simp only [Control.checkArms, Control.armOutlines, bind_assoc,
      checkArms_bind_outlines conditions path rest _ arms]
    exact checkAll_bind_outlines _ path _ taken children

end

/-- A form passes its check exactly when its outline does, and fails as the outline does. -/
theorem check_outline (form : Form) :
    form.check = (do let _ ← form.outline.check "" []) := by
  have h := checkAll_bind_outlines [] "" .done [] form.controls
  simp only [Outline.check, bind_ok] at h
  rw [Form.check, Form.outline, ← h]

end FormDesign
