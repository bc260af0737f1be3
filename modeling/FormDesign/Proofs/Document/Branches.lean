import FormDesign.Proofs.Document.Parts
import FormDesign.Proofs.Outline.Leaves

/-!
# Branches leave no trace

A branch is transparent. The check of a form does not see its branches at all, and in the document
they show nowhere but in the relevance of the binds, and there only through the conditions that
reach each question. So branches may be split, merged and nested at will, as long as the questions
and groups stay in their order and every question keeps its conditions.

## Main definitions

* `Document.withoutRelevance`: a document whose binds do not say when their questions are asked;
* `Control.Rearranged`: controls whose branches are arranged in another way.

## Main results

* `check_flatten`: a form and its flattening pass the check alike;
* `withoutRelevance_documentWith_flatten`: their documents differ in the relevance of binds alone;
* `compile_eq_of_outline_eq`: a form is compiled from its title and its outline;
* `Control.Rearranged.outlines_eq`: rearranging branches does not change an outline;
* `compile_sees_through_branches`: all of this for the result of compiling a form.
-/

namespace FormDesign

open Xml (Node)

/-! ## Checks -/

/-- The check of an outline does not read its conditions. -/
theorem Outline.check_unconditional (path : String) (taken : List String) (o : Outline) :
    o.unconditional.check path taken = o.check path taken := by
  induction o generalizing path taken with
  | done => rfl
  | question conditions field input rest ih => simp only [unconditional, check, ih]
  | group name label inside rest ihInside ihRest =>
    simp only [unconditional, check, ihInside, ihRest]

/-- A form and its flattening pass the check alike, or fail it with the same defect. -/
theorem check_flatten (form : Form) : form.flatten.check = form.check := by
  rw [check_outline, check_outline, outline_flatten, Outline.check_unconditional]

/-! ## Documents up to relevance -/

/-- The document whose binds do not say when their questions are asked. -/
def Document.withoutRelevance (doc : Node) : Node :=
  doc.onChildren "h:head"
    (Node.onChildren "model" (Node.onChildren "bind" (Node.without "relevant")))

/-- What is contributed, with binds that do not say when their questions are asked. -/
def Fragment.withoutRelevance (f : Fragment) : Fragment where
  inst := f.inst
  body := f.body
  binds := f.binds.map fun node => if node.name = "bind" then node.without "relevant" else node
  texts := f.texts

section

variable (quote : String → String)

namespace Fragment

theorem withoutRelevance_append (a b : Fragment) :
    (a ++ b).withoutRelevance = a.withoutRelevance ++ b.withoutRelevance :=
  ext_parts rfl rfl List.map_append rfl

/-- Only the binds of the members of a group say when something is asked. -/
theorem withoutRelevance_group (scope : Scope) (name : String) (label : Option LocalizedText)
    (f : Fragment) :
    (group quote scope name label f).withoutRelevance =
      group quote scope name label f.withoutRelevance := rfl

/-- The binds stand in the model of a document, and nothing else in it is relevant or not. -/
theorem withoutRelevance_document (f : Fragment) (title : String) (options : Options) :
    Document.withoutRelevance (f.document quote title options) =
      f.withoutRelevance.document quote title options := rfl

end Fragment

/-- Without its relevance, a bind does not depend on the conditions around the question. -/
theorem Field.without_relevant_bind (scope : Scope) (conditions : List String) (field : Field)
    (input : Input) :
    (field.bind quote { scope with conditions } input).without "relevant" =
      (field.bind quote scope input).without "relevant" := by
  simp only [bind, Node.without_attr?, Node.without_attr]
  rfl

/-- What a question contributes depends on the conditions around it through its relevance alone. -/
theorem Field.withoutRelevance_fragment (refs : BodyRefs) (scope : Scope)
    (conditions : List String) (field : Field) (input : Input) :
    (field.fragment quote refs { scope with conditions } input).withoutRelevance =
      (field.fragment quote refs scope input).withoutRelevance := by
  refine Fragment.ext_parts rfl rfl ?_ rfl
  simp only [Fragment.withoutRelevance, fragment, List.map_singleton, name_bind, if_true,
    without_relevant_bind]

/-- An outline contributes the same with and without its conditions, but for the relevance of
binds. -/
theorem Outline.withoutRelevance_fragment_unconditional (refs : BodyRefs) (scope : Scope)
    (o : Outline) :
    (o.unconditional.fragment quote refs scope).withoutRelevance =
      (o.fragment quote refs scope).withoutRelevance := by
  induction o generalizing scope with
  | done => rfl
  | question conditions field input rest ih =>
    rw [unconditional, fragment, fragment, Fragment.withoutRelevance_append,
      Fragment.withoutRelevance_append, ih,
      Field.withoutRelevance_fragment quote refs scope [] field input,
      Field.withoutRelevance_fragment quote refs scope conditions field input]
  | group name label inside rest ihInside ihRest =>
    rw [unconditional, fragment, fragment, Fragment.withoutRelevance_append,
      Fragment.withoutRelevance_append, Fragment.withoutRelevance_group,
      Fragment.withoutRelevance_group, ihInside, ihRest]

/-- A form and its flattening have documents that differ in the relevance of binds alone. -/
theorem withoutRelevance_documentWith_flatten (form : Form) (options : Options) :
    Document.withoutRelevance (form.flatten.documentWith quote options) =
      Document.withoutRelevance (form.documentWith quote options) := by
  have hTitle : form.flatten.title = form.title := rfl
  rw [Form.documentWith, Form.documentWith, Fragment.withoutRelevance_document,
    Fragment.withoutRelevance_document, fragment_outline, fragment_outline, outline_flatten,
    Outline.withoutRelevance_fragment_unconditional, hTitle]

end

/-! ## Rearranging branches -/

/-- A form is compiled from its title and its outline. -/
theorem compile_eq_of_outline_eq {form other : Form} (hTitle : other.title = form.title)
    (hOutline : other.outline = form.outline) (options : Options) :
    other.compile options = form.compile options := by
  rw [Form.compile, Form.compile, check_outline, check_outline, Form.documentWith,
    Form.documentWith, fragment_outline, fragment_outline, hTitle, hOutline]

namespace Control

/-- What may be changed about the arms of a branch. -/
inductive ArmStep : List (Arm Control) → List (Arm Control) → Prop
  /-- An arm holds a branch that brings the last of its conditions. -/
  | nest (name : Option String) (outer inner : List String) (children : List Control) :
      ArmStep [⟨outer ++ inner, children⟩] [⟨outer, [.branch name [⟨inner, children⟩]]⟩]
  /-- A blank condition is left out. -/
  | blank (before after : List String) {condition : String} (children : List Control)
      (blank : Text.isBlank condition = true) :
      ArmStep [⟨before ++ condition :: after, children⟩] [⟨before ++ after, children⟩]
  /-- An arm without children is left out. -/
  | childless (conditions : List String) : ArmStep [⟨conditions, []⟩] []

/-- Controls whose branches are arranged in another way, at any depth. -/
inductive Rearranged : List Control → List Control → Prop
  | refl (controls : List Control) : Rearranged controls controls
  | symm {a b : List Control} (h : Rearranged a b) : Rearranged b a
  | trans {a b c : List Control} (first : Rearranged a b) (second : Rearranged b c) :
      Rearranged a c
  | append {a b c d : List Control} (first : Rearranged a b) (later : Rearranged c d) :
      Rearranged (a ++ c) (b ++ d)
  | group (name : String) (label : Option LocalizedText) {a b : List Control}
      (inside : Rearranged a b) : Rearranged [.group name label a] [.group name label b]
  | arm (name : Option String) (earlier later : List (Arm Control)) (conditions : List String)
      {a b : List Control} (inside : Rearranged a b) :
      Rearranged [.branch name (earlier ++ ⟨conditions, a⟩ :: later)]
        [.branch name (earlier ++ ⟨conditions, b⟩ :: later)]
  /-- Some of the arms of a branch are changed. -/
  | arms (name : Option String) (earlier later : List (Arm Control)) {a b : List (Arm Control)}
      (step : ArmStep a b) :
      Rearranged [.branch name (earlier ++ a ++ later)] [.branch name (earlier ++ b ++ later)]
  /-- A branch is split in two, one behind the other, or two are merged. -/
  | split (name first second : Option String) (earlier later : List (Arm Control)) :
      Rearranged [.branch name (earlier ++ later)] [.branch first earlier, .branch second later]

theorem outlines_append (conditions : List String) (rest : Outline) (a b : List Control) :
    outlines conditions rest (a ++ b) = outlines conditions (outlines conditions rest b) a := by
  induction a with
  | nil => rw [List.nil_append, outlines]
  | cons control controls ih => rw [List.cons_append, outlines, outlines, ih]

theorem armOutlines_append (conditions : List String) (rest : Outline) (a b : List (Arm Control)) :
    armOutlines conditions rest (a ++ b) =
      armOutlines conditions (armOutlines conditions rest b) a := by
  induction a with
  | nil => rw [List.nil_append, armOutlines]
  | cons arm arms ih =>
    obtain ⟨own, children⟩ := arm
    rw [List.cons_append, armOutlines, armOutlines, ih]

/-- A branch has the outline of its arms, whatever its name. -/
theorem outlines_branch (conditions : List String) (rest : Outline) (name : Option String)
    (arms : List (Arm Control)) :
    outlines conditions rest [.branch name arms] = armOutlines conditions rest arms := by
  rw [outlines, outlines, outline]

/-- The one arm of a branch hands its conditions down. -/
theorem armOutlines_singleton (conditions : List String) (rest : Outline) (own : List String)
    (children : List Control) :
    armOutlines conditions rest [⟨own, children⟩] =
      outlines (conditions ++ own.filter fun c => !Text.isBlank c) rest children := by
  rw [armOutlines, armOutlines]

/-- Changing the arms of a branch does not change their outline. -/
theorem ArmStep.armOutlines_eq {a b : List (Arm Control)} (h : ArmStep a b)
    (conditions : List String) (rest : Outline) :
    armOutlines conditions rest a = armOutlines conditions rest b := by
  cases h with
  | nest name outer inner children =>
    -- the inner arm puts its conditions behind those that reach the branch
    rw [armOutlines_singleton, armOutlines_singleton, outlines_branch, armOutlines_singleton,
      List.filter_append, List.append_assoc]
  | blank before after children blank =>
    rw [armOutlines_singleton, armOutlines_singleton, List.filter_append, List.filter_append,
      List.filter_cons_of_neg (by simp [blank])]
  | childless own =>
    -- with no children, the outline of the arm is what follows it
    rw [armOutlines_singleton, outlines, armOutlines]

/-- Rearranging branches does not change the outline. -/
theorem Rearranged.outlines_eq {a b : List Control} (h : Rearranged a b)
    (conditions : List String) (rest : Outline) :
    outlines conditions rest a = outlines conditions rest b := by
  induction h generalizing conditions rest with
  | refl controls => rfl
  | symm _ ih => exact (ih conditions rest).symm
  | trans _ _ ihFirst ihSecond =>
    exact (ihFirst conditions rest).trans (ihSecond conditions rest)
  | append _ _ ihFirst ihLater => rw [outlines_append, outlines_append, ihFirst, ihLater]
  | group name label _ ihInside =>
    rw [outlines, outlines, outlines, outlines, outline, outline, ihInside]
  | arm name earlier later own _ ihInside =>
    rw [outlines_branch, outlines_branch, armOutlines_append, armOutlines_append, armOutlines,
      armOutlines, ihInside]
  | arms name earlier later step =>
    rw [outlines_branch, outlines_branch, armOutlines_append, armOutlines_append,
      armOutlines_append, armOutlines_append, step.armOutlines_eq]
  | split name first second earlier later =>
    rw [outlines_branch, armOutlines_append, outlines, outlines_branch, outline]

end Control

/-! ## Forms -/

/-- Branches are transparent. A form and its flattening fail the check alike, and compile to the
same defect or to documents that differ in the relevance of binds alone. Forms with one flattening
whose questions are under the same conditions compile alike, and so does a form whose branches are
arranged in another way. -/
theorem compile_sees_through_branches (form : Form) (options : Options) :
    form.flatten.check = form.check ∧
      Document.withoutRelevance <$> form.flatten.compile options =
        Document.withoutRelevance <$> form.compile options ∧
      (∀ other : Form, other.flatten = form.flatten →
        other.leaves.map Leaf.gates = form.leaves.map Leaf.gates →
        other.compile options = form.compile options) ∧
      ∀ controls, Control.Rearranged form.controls controls →
        { form with controls }.compile options = form.compile options := by
  refine ⟨check_flatten form, ?_, ?_, ?_⟩
  · -- both fail where a check does, and past the checks only the documents are left
    rw [Form.compile, Form.compile, check_flatten]
    simp only [map_bind, map_pure, withoutRelevance_documentWith_flatten]
  · intro other hFlatten hGates
    -- the flattening tells the questions and groups, and the gates tell what counts for each
    have hTitle : other.title = form.title := by
      change other.flatten.title = form.flatten.title
      rw [hFlatten]
    have hControls : other.outline.controls = form.outline.controls := by
      rw [controls_outline, controls_outline, hFlatten]
    have hConditions : other.outline.conditionLists = form.outline.conditionLists := by
      rw [conditionLists_outline, conditionLists_outline, hGates]
    exact compile_eq_of_outline_eq hTitle (Outline.eq_of_controls_eq hControls hConditions) options
  · intro controls hRearranged
    have hOutline : { form with controls }.outline = form.outline :=
      (hRearranged.outlines_eq [] .done).symm
    have hTitle : { form with controls }.title = form.title := rfl
    exact compile_eq_of_outline_eq hTitle hOutline options

/-- A branch of two arms, the first of them with a group that holds a branch under a blank
condition among others. -/
def forkedForm : Form where
  title := "Forked"
  controls := [
    .branch none [
      ⟨["a = 1"], [
        .group "g" none [.branch none [⟨["b = 2", " "], [.question (Field.named "x") .date]⟩]]]⟩,
      ⟨["c = 3"], [.question (Field.named "y") .date]⟩]]

/-- The questions and groups of `forkedForm`, with the group outside every branch. -/
def hoistedForm : Form where
  title := "Forked"
  controls := [
    .group "g" none [
      .branch (some "both") [⟨["a = 1", "b = 2"], [.question (Field.named "x") .date]⟩]],
    .branch none [⟨["c = 3"], [.branch none [⟨[], [.question (Field.named "y") .date]⟩]]⟩]]

/-- The arms of `forkedForm` in branches of their own. -/
def partedControls : List Control := [
  .branch (some "first") [
    ⟨["a = 1"], [
      .group "g" none [.branch none [⟨["b = 2", " "], [.question (Field.named "x") .date]⟩]]]⟩],
  .branch (some "second") [⟨["c = 3"], [.question (Field.named "y") .date]⟩]]

theorem forkedForm_sees_through_branches :
    let doc := forkedForm.documentWith Xml.escape .default
    forkedForm.compile Options.default = .ok doc ∧
      hoistedForm.flatten = forkedForm.flatten ∧
      hoistedForm.leaves.map Leaf.gates = forkedForm.leaves.map Leaf.gates ∧
      hoistedForm.compile Options.default = .ok doc ∧
      Control.Rearranged forkedForm.controls partedControls ∧
      { forkedForm with controls := partedControls }.compile Options.default = .ok doc ∧
      Document.withoutRelevance <$> forkedForm.flatten.compile Options.default =
        .ok (Document.withoutRelevance doc) := by
  have hCompile : forkedForm.compile Options.default =
      .ok (forkedForm.documentWith Xml.escape .default) := rfl
  obtain ⟨-, hFlatten, hAlike, hRearranged⟩ := compile_sees_through_branches forkedForm .default
  have hGates : hoistedForm.leaves.map Leaf.gates = forkedForm.leaves.map Leaf.gates := by
    decide +kernel
  have hParted : Control.Rearranged forkedForm.controls partedControls :=
    .split none (some "first") (some "second") [_] [_]
  refine ⟨hCompile, rfl, hGates, ?_, hParted, ?_, ?_⟩
  · rw [hAlike hoistedForm rfl hGates, hCompile]
  · rw [hRearranged partedControls hParted, hCompile]
  · rw [hFlatten, hCompile]
    rfl

end FormDesign
