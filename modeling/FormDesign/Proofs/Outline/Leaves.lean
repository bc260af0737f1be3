import FormDesign.Proofs.Outline.Flatten
import FormDesign.Proofs.Outline.Sites

/-!
# Leaves

A leaf is a question together with what stands around it in the form: the names of the groups and
the conditions of the arms, both from the outermost to the innermost. Leaves are collected from
the controls upwards, so that a group or an arm adds itself to what is inside it and to nothing
else.

The walk that compiles a form goes the other way: it hands paths and conditions downwards. The two
agree on every question, which is why nothing leaks from a control to the ones beside it.

## Main definitions

* `Leaf`, `Control.leaves`, `Form.leaves`: the questions of a form with their surroundings;
* `Leaf.gates`: the conditions around a leaf that count.

## Main results

* `map_leaf_sites`: the sites of a form are its leaves, in order, with the conditions that count;
* `leaves_flatten`: the leaves of the flattening, which are under no conditions;
* `conditionLists_outline`: the conditions in the outline of a form are the gates of its leaves.
-/

namespace FormDesign

/-- A question and what stands around it, from the outermost to the innermost. -/
structure Leaf where
  /-- The names of the groups. -/
  groups : List String
  /-- The conditions of the arms, the blank ones among them. -/
  conditions : List String
  field : Field
  input : Input

namespace Leaf

/-- The leaf as it is seen from outside a group. -/
def inGroup (name : String) (leaf : Leaf) : Leaf :=
  { leaf with groups := name :: leaf.groups }

/-- The leaf as it is seen from outside an arm. -/
def inArm (own : List String) (leaf : Leaf) : Leaf :=
  { leaf with conditions := own ++ leaf.conditions }

/-- The conditions that count: those that are not blank. -/
def gates (leaf : Leaf) : List String :=
  leaf.conditions.filter fun c => !Text.isBlank c

/-- The leaf under no conditions. -/
def bare (leaf : Leaf) : Leaf :=
  { leaf with conditions := [] }

/-- The names that lead to the question. -/
def names (leaf : Leaf) : List String :=
  leaf.groups ++ [leaf.field.name]

/-- The path of the answer that follows from the names. -/
def path (root : String) (leaf : Leaf) : String :=
  pathOf (root :: leaf.names)

end Leaf

namespace Control

mutual

/-- The leaves of a control, in order. -/
def leaves : Control → List Leaf
  | group name _ children => (leavesAll children).map (Leaf.inGroup name)
  | branch _ arms => leavesArms arms
  | question field input => [⟨[], [], field, input⟩]

/-- The leaves of controls, one control after another. -/
def leavesAll : List Control → List Leaf
  | [] => []
  | control :: controls => leaves control ++ leavesAll controls

/-- The leaves of the controls of arms, one arm after another. -/
def leavesArms : List (Arm Control) → List Leaf
  | [] => []
  | ⟨own, children⟩ :: arms => (leavesAll children).map (Leaf.inArm own) ++ leavesArms arms

end

end Control

/-- The leaves of a form, in the order of its text. -/
def Form.leaves (form : Form) : List Leaf :=
  Control.leavesAll form.controls

/-! ## Leaves and sites -/

/-- The leaf that a site is, with the conditions that count. -/
def Site.leaf (s : Site) : Leaf :=
  ⟨s.above, s.conditions, s.field, s.input⟩

/-- The leaf under further conditions, with those of its own that count. -/
def Leaf.under (conditions : List String) (leaf : Leaf) : Leaf :=
  { leaf with conditions := conditions ++ leaf.gates }

/-- The conditions of an arm come behind those around it, without the blank ones. -/
theorem Leaf.under_inArm (conditions own : List String) (leaf : Leaf) :
    (leaf.inArm own).under conditions =
      leaf.under (conditions ++ own.filter fun c => !Text.isBlank c) := by
  simp only [under, inArm, gates, List.filter_append, List.append_assoc]

namespace Outline

/-- A question gives a leaf before those of what follows it. -/
theorem map_leaf_sites_question (conditions : List String) (field : Field) (input : Input)
    (rest : Outline) :
    (question conditions field input rest).sites.map Site.leaf =
      ⟨[], conditions, field, input⟩ :: rest.sites.map Site.leaf := by
  rw [sites, List.map_cons, List.map_map]
  rfl

/-- The leaves in a group are behind its name, and before those of what follows it. -/
theorem map_leaf_sites_group (name : String) (label : Option LocalizedText)
    (inside rest : Outline) :
    (group name label inside rest).sites.map Site.leaf =
      (inside.sites.map Site.leaf).map (Leaf.inGroup name) ++ rest.sites.map Site.leaf := by
  rw [sites, List.map_append, List.map_map, List.map_map, List.map_map]
  rfl

end Outline

mutual

/-- What a control is flattened to has the leaves of the control. -/
theorem leaf_sites_control (conditions : List String) (rest : Outline) : ∀ control : Control,
    (control.outline conditions rest).sites.map Site.leaf =
      control.leaves.map (Leaf.under conditions) ++ rest.sites.map Site.leaf
  | .group name label children => by
    have hInside := leaf_sites_controls conditions .done children
    rw [Outline.sites, List.map_nil, List.append_nil] at hInside
    rw [Control.outline, Outline.map_leaf_sites_group, Control.leaves, hInside, List.map_map,
      List.map_map]
    -- a group adds its name, and the conditions around it reach inside as they are
    rfl
  | .branch _ arms => by
    rw [Control.outline, Control.leaves]
    exact leaf_sites_arms conditions rest arms
  | .question field input => by
    rw [Control.outline, Outline.map_leaf_sites_question, Control.leaves, List.map_singleton]
    simp only [Leaf.under, Leaf.gates, List.filter_nil, List.append_nil]
    rfl

theorem leaf_sites_controls (conditions : List String) (rest : Outline) :
    ∀ controls : List Control,
      (Control.outlines conditions rest controls).sites.map Site.leaf =
        (Control.leavesAll controls).map (Leaf.under conditions) ++ rest.sites.map Site.leaf
  | [] => by rw [Control.outlines, Control.leavesAll, List.map_nil, List.nil_append]
  | control :: controls => by
    rw [Control.outlines, Control.leavesAll, leaf_sites_control, leaf_sites_controls,
      List.map_append, List.append_assoc]

theorem leaf_sites_arms (conditions : List String) (rest : Outline) :
    ∀ arms : List (Arm Control),
      (Control.armOutlines conditions rest arms).sites.map Site.leaf =
        (Control.leavesArms arms).map (Leaf.under conditions) ++ rest.sites.map Site.leaf
  | [] => by rw [Control.armOutlines, Control.leavesArms, List.map_nil, List.nil_append]
  | ⟨own, children⟩ :: arms => by
    -- the conditions of an arm reach its own leaves, and not those of the arms behind it
    have hOwn : (Control.leavesAll children).map (Leaf.under conditions ∘ Leaf.inArm own) =
        (Control.leavesAll children).map
          (Leaf.under (conditions ++ own.filter fun c => !Text.isBlank c)) := by
      apply List.map_congr_left
      intro leaf _
      exact leaf.under_inArm conditions own
    rw [Control.armOutlines, Control.leavesArms, leaf_sites_controls, leaf_sites_arms,
      List.map_append, List.map_map, hOwn, List.append_assoc]

end

/-- The sites of a form are its leaves, in order, each with the conditions around it that count. -/
theorem map_leaf_sites (form : Form) :
    form.sites.map Site.leaf = form.leaves.map (Leaf.under []) := by
  rw [Form.sites, Form.outline, leaf_sites_controls, Outline.sites, List.map_nil, List.append_nil,
    Form.leaves]

/-- What holds of every leaf and of what is made from its site holds of the leaves of a form and of
what is made from the sites, in the same order. -/
theorem forall₂_leaves_map_sites {α : Type} {P : Leaf → α → Prop} {f : Site → α} (form : Form)
    (h : ∀ (leaf : Leaf) (s : Site), leaf.under [] = s.leaf → P leaf (f s)) :
    List.Forall₂ P form.leaves (form.sites.map f) := by
  have hPairs : List.Forall₂ Eq (form.leaves.map (Leaf.under [])) (form.sites.map Site.leaf) := by
    rw [List.forall₂_eq_eq_eq]
    exact (map_leaf_sites form).symm
  rw [List.forall₂_map_left_iff, List.forall₂_map_right_iff] at hPairs
  exact List.forall₂_map_right_iff.2 (hPairs.imp h)

/-! ## Leaves of flattened forms -/

/-- The leaves of the controls of an outline are its sites, under no conditions. -/
theorem Outline.leavesAll_controls (o : Outline) :
    Control.leavesAll o.controls = o.sites.map fun s => s.leaf.bare := by
  induction o with
  | done => rw [controls, Control.leavesAll, sites, List.map_nil]
  | question conditions field input rest ih =>
    rw [controls, Control.leavesAll, ih, Control.leaves, sites, List.map_cons, List.map_map]
    rfl
  | group name label inside rest ihInside ihRest =>
    rw [controls, Control.leavesAll, ihRest, Control.leaves, ihInside, sites, List.map_append,
      List.map_map, List.map_map, List.map_map]
    rfl

/-- The leaves of the flattening of a form are its sites, under no conditions. -/
theorem leaves_flatten (form : Form) :
    form.flatten.leaves = form.sites.map fun s => s.leaf.bare := by
  rw [Form.leaves, ← controls_outline, Outline.leavesAll_controls, Form.sites]

/-- The conditions in an outline are those of its sites. -/
theorem Outline.conditionLists_eq_map_sites (o : Outline) :
    o.conditionLists = o.sites.map Site.conditions := by
  induction o with
  | done => rfl
  | question conditions field input rest ih =>
    rw [conditionLists, ih, sites, List.map_cons, List.map_map]
    rfl
  | group name label inside rest ihInside ihRest =>
    rw [conditionLists, ihInside, ihRest, sites, List.map_append, List.map_map, List.map_map]
    rfl

/-- The conditions in the outline of a form are the gates of its leaves. -/
theorem conditionLists_outline (form : Form) :
    form.outline.conditionLists = form.leaves.map Leaf.gates := by
  have hLeaves := congrArg (List.map Leaf.conditions) (map_leaf_sites form)
  rw [List.map_map, List.map_map] at hLeaves
  rw [Outline.conditionLists_eq_map_sites]
  exact hLeaves

end FormDesign
