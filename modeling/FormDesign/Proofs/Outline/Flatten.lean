import FormDesign.Proofs.Outline

/-!
# Flattening

Flattening a form puts the controls of every arm in the place of their branch, in order and at
every depth. What is left is a forest of questions and groups, without a trace of the branches.

The outline of a form is this forest together with the conditions that count for each question.
So a form and its flattening have the same outline up to conditions, and two forms with one
flattening differ in nothing but the conditions of their questions.

## Main definitions

* `Form.flatten`: the form without its branches;
* `Outline.controls`: the controls that an outline stands for;
* `Outline.unconditional`, `Outline.conditionLists`: an outline without its conditions, and the
  conditions of its questions.

## Main results

* `controls_outline`: the outline of a form stands for the controls of its flattening;
* `outline_flatten`: the flattening of a form has the outline of the form without the conditions;
* `Outline.eq_of_controls_eq`: an outline is made of its controls and of its conditions.
-/

namespace FormDesign

namespace Control

mutual

/-- The questions and groups that stand for a control once arms take the place of their branch. -/
def flatten : Control → List Control
  | group name label children => [.group name label (flattenAll children)]
  | branch _ arms => flattenArms arms
  | question field input => [.question field input]

/-- The questions and groups that stand for controls, one control after another. -/
def flattenAll : List Control → List Control
  | [] => []
  | control :: controls => flatten control ++ flattenAll controls

/-- The questions and groups that stand for the controls of arms, one arm after another. -/
def flattenArms : List (Arm Control) → List Control
  | [] => []
  | ⟨_, children⟩ :: arms => flattenAll children ++ flattenArms arms

end

end Control

/-- The form in which the controls of every arm stand in the place of their branch. -/
def Form.flatten (form : Form) : Form :=
  { form with controls := Control.flattenAll form.controls }

/-! ## Outlines and their controls -/

namespace Outline

/-- The questions and groups that an outline stands for. -/
def controls : Outline → List Control
  | done => []
  | question _ field input rest => .question field input :: rest.controls
  | group name label inside rest => .group name label inside.controls :: rest.controls

/-- The outline in which every question is asked whatever happens. -/
def unconditional : Outline → Outline
  | done => done
  | question _ field input rest => question [] field input rest.unconditional
  | group name label inside rest => group name label inside.unconditional rest.unconditional

/-- The conditions that count for each question, in the order of the questions. -/
def conditionLists : Outline → List (List String)
  | done => []
  | question conditions _ _ rest => conditions :: rest.conditionLists
  | group _ _ inside rest => inside.conditionLists ++ rest.conditionLists

end Outline

mutual

theorem controls_control (conditions : List String) (rest : Outline) : ∀ control : Control,
    (control.outline conditions rest).controls = control.flatten ++ rest.controls
  | .group name label children => by
    -- nothing follows the last control inside the group
    have hInside := controls_controls conditions .done children
    rw [Outline.controls, List.append_nil] at hInside
    rw [Control.outline, Outline.controls, Control.flatten, hInside]
    rfl
  | .branch _ arms => by
    rw [Control.outline, Control.flatten]
    exact controls_arms conditions rest arms
  | .question field input => by
    rw [Control.outline, Outline.controls, Control.flatten]
    rfl

theorem controls_controls (conditions : List String) (rest : Outline) :
    ∀ controls : List Control,
      (Control.outlines conditions rest controls).controls =
        Control.flattenAll controls ++ rest.controls
  | [] => by rw [Control.outlines, Control.flattenAll, List.nil_append]
  | control :: controls => by
    rw [Control.outlines, Control.flattenAll, controls_control, controls_controls,
      List.append_assoc]

theorem controls_arms (conditions : List String) (rest : Outline) :
    ∀ arms : List (Arm Control),
      (Control.armOutlines conditions rest arms).controls =
        Control.flattenArms arms ++ rest.controls
  | [] => by rw [Control.armOutlines, Control.flattenArms, List.nil_append]
  | ⟨_, children⟩ :: arms => by
    rw [Control.armOutlines, Control.flattenArms, controls_controls, controls_arms,
      List.append_assoc]

end

/-- The outline of a form stands for the controls of its flattening. -/
theorem controls_outline (form : Form) : form.outline.controls = form.flatten.controls := by
  rw [Form.outline, controls_controls, Outline.controls, List.append_nil, Form.flatten]

namespace Outline

/-- What an outline stands for has the outline again, but for the conditions. -/
theorem outlines_controls (o : Outline) :
    Control.outlines [] .done o.controls = o.unconditional := by
  induction o with
  | done => rw [controls, Control.outlines, unconditional]
  | question conditions field input rest ih =>
    rw [controls, Control.outlines, ih, Control.outline, unconditional]
  | group name label inside rest ihInside ihRest =>
    rw [controls, Control.outlines, ihRest, Control.outline, ihInside, unconditional]

/-- Outlines of the same controls whose conditions begin the same lists are equal, and then so is
what is left of the lists. -/
theorem eq_and_eq_of_controls_eq {o p : Outline} {later later' : List (List String)}
    (hControls : o.controls = p.controls)
    (hConditions : o.conditionLists ++ later = p.conditionLists ++ later') :
    o = p ∧ later = later' := by
  induction o generalizing p later later' with
  | done =>
    cases p with
    | done => exact ⟨rfl, hConditions⟩
    | question | group => cases hControls
  | question conditions field input rest ih =>
    cases p with
    | done => cases hControls
    | group => cases hControls
    | question conditions' field' input' rest' =>
      obtain ⟨hQuestion, hRest⟩ := List.cons.inj hControls
      obtain ⟨hOwn, hOthers⟩ := List.cons.inj hConditions
      obtain ⟨rfl, rfl⟩ := Control.question.inj hQuestion
      obtain ⟨rfl, hLater⟩ := ih hRest hOthers
      exact ⟨by rw [hOwn], hLater⟩
  | group name label inside rest ihInside ihRest =>
    cases p with
    | done => cases hControls
    | question => cases hControls
    | group name' label' inside' rest' =>
      obtain ⟨hGroup, hRest⟩ := List.cons.inj hControls
      obtain ⟨rfl, rfl, hInside⟩ := Control.group.inj hGroup
      -- the conditions inside the group come first, and those of the rest are left over
      rw [conditionLists, conditionLists, List.append_assoc, List.append_assoc] at hConditions
      obtain ⟨rfl, hOthers⟩ := ihInside hInside hConditions
      obtain ⟨rfl, hLater⟩ := ihRest hRest hOthers
      exact ⟨rfl, hLater⟩

/-- An outline is made of its controls and of the conditions of its questions. -/
theorem eq_of_controls_eq {o p : Outline} (hControls : o.controls = p.controls)
    (hConditions : o.conditionLists = p.conditionLists) : o = p := by
  have hLists : o.conditionLists ++ [] = p.conditionLists ++ [] := by rw [hConditions]
  exact (eq_and_eq_of_controls_eq hControls hLists).1

end Outline

/-- The flattening of a form has the outline of the form, without the conditions. -/
theorem outline_flatten (form : Form) : form.flatten.outline = form.outline.unconditional := by
  rw [Form.outline, ← controls_outline, Outline.outlines_controls]

end FormDesign
