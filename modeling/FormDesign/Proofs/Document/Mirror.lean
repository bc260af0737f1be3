import FormDesign.Proofs.Document.Paths
import FormDesign.Proofs.Outline.Leaves
import FormDesign.Proofs.Outline.Wordings
import Mathlib.Data.List.Forall2

/-!
# Documents mirror their forms

A compiled document says everything about the controls of its form in four places: in the
instance, in the body, in the binds and in the questions of the body. All four follow the
flattening of the form. The instance and the body are the forest itself, node for node, while the
binds and the questions are lists of its leaves. Each place is filled by the same walk, but in a
list of its own, so what is to be shown is that the lists keep step at every nesting.

## Main definitions

* `Input.IsAskedBy`: the element that asks for an input and the type of its answer, kind by kind;
* `Control.InInstance`, `Control.InBody`: what stands for a control in the instance and the body;
* `Document.IsBind`, `Document.IsQuestion`: what stands for a leaf among the binds and questions.

## Main results

* `Outline.inInstance_fragment`, `Outline.inBody_fragment`: both forests mirror the outline;
* `Outline.emptyPathsAll_inst`: the empty elements of the instance are those of the sites;
* `compile_mirrors_controls`: all four places follow the flattening of the form.
-/

namespace FormDesign

open Xml (Node)

/-! ## What stands for a control -/

/-- The element of the body that asks for an input, and the type that its bind gives the answer. -/
inductive Input.IsAskedBy : Input → String → Option String → Prop
  | text (length : Option Bounds) : IsAskedBy (.text length) "input" (some "string")
  | integer (range : Option Bounds) : IsAskedBy (.numeric .integer range) "input" (some "int")
  | decimal (range : Option Bounds) : IsAskedBy (.numeric .decimal range) "input" (some "decimal")
  | date : IsAskedBy .date "input" (some "date")
  | location : IsAskedBy .location "input" (some "geopoint")
  | media (kind : MediaKind) : IsAskedBy (.media kind) "upload" (some "binary")
  | selectOne (options : List Choice) : IsAskedBy (.selectOne options) "select1" none
  | selectMany (options : List Choice) : IsAskedBy (.selectMany options) "select" none

theorem Input.isAskedBy (input : Input) : input.IsAskedBy input.bodyTag input.bindType? := by
  cases input with
  | text length => exact .text length
  | numeric kind range =>
    cases kind with
    | integer => exact .integer range
    | decimal => exact .decimal range
  | date => exact .date
  | location => exact .location
  | media kind => exact .media kind
  | selectOne options => exact .selectOne options
  | selectMany options => exact .selectMany options

/-- The element that stands for a question or a group in the instance. Nothing stands for a
branch. -/
inductive Control.InInstance : Control → Node → Prop
  | question (field : Field) (input : Input) :
      InInstance (.question field input) (.empty field.name .empty)
  | group (name : String) (label : Option LocalizedText) {children : List Control}
      {nodes : List Node} (inside : List.Forall₂ InInstance children nodes) :
      InInstance (.group name label children) (.parent name .empty nodes)

/-- The element that stands for a question or a group in the body. A group shows its label before
its members, if the label says something in some language. -/
inductive Control.InBody : Control → Node → Prop
  | question (field : Field) {input : Input} {element : String} {type : Option String}
      (attrs : Xml.Attributes) (nodes : List Node) (asked : input.IsAskedBy element type) :
      InBody (.question field input) (.parent element attrs nodes)
  | group (name : String) {label : Option LocalizedText} {children : List Control}
      {caption : Option Node} {nodes : List Node}
      (shown : caption.isSome = true ↔ ∃ t ∈ label, ∃ language, t.get language ≠ "")
      (element : ∀ node ∈ caption, node.name = "label")
      (inside : List.Forall₂ InBody children nodes) :
      InBody (.group name label children) (.parent "group" .empty (caption.toList ++ nodes))

/-! ## Forests -/

section

variable (quote : String → String) (refs : BodyRefs)

/-- The body element of a question is named for what it asks, and holds a list of elements. -/
theorem Field.exists_bodyNode_eq (scope : Scope) (field : Field) (input : Input) :
    ∃ attrs nodes, field.bodyNode quote refs scope input = .parent input.bodyTag attrs nodes := by
  unfold bodyNode
  cases input.mediaType? with
  | none => exact ⟨_, _, rfl⟩
  | some mediaType => exact ⟨_, _, rfl⟩

/-- The label of a group has an element exactly when it says something. -/
theorem exists_caption_eq (path : String) (label : Option LocalizedText) :
    ∃ caption : Option Node,
      (captionOf "label" path label).map (Caption.node quote) = caption.toList ∧
      (caption.isSome = true ↔ ∃ t ∈ label, ∃ language, t.get language ≠ "") ∧
      ∀ node ∈ caption, node.name = "label" := by
  rw [← isSome_visible?_iff, captionOf]
  cases visible? label with
  | none => exact ⟨none, rfl, Iff.rfl, fun node hNode => absurd hNode (Option.not_mem_none node)⟩
  | some t =>
    refine ⟨some (Caption.node quote ⟨"label", path ++ ":" ++ "label", t⟩), rfl, Iff.rfl, ?_⟩
    intro node hNode
    rw [← Option.mem_some.1 hNode, Caption.node, Node.name_attr]
    rfl

namespace Outline

/-- The instance is the forest of an outline, node for node. -/
theorem inInstance_fragment (scope : Scope) (o : Outline) :
    List.Forall₂ Control.InInstance o.controls (o.fragment quote refs scope).inst := by
  induction o generalizing scope with
  | done => exact .nil
  | question conditions field input rest ih => exact .cons (.question field input) (ih scope)
  | group name label inside rest ihInside ihRest =>
    -- the scope inside a group changes the paths, which the instance does not show
    exact .cons (.group name label (ihInside (scope.group name))) (ihRest scope)

/-- The body is the forest of an outline, node for node. -/
theorem inBody_fragment (scope : Scope) (o : Outline) :
    List.Forall₂ Control.InBody o.controls (o.fragment quote refs scope).body := by
  induction o generalizing scope with
  | done => exact .nil
  | question conditions field input rest ih =>
    obtain ⟨attrs, nodes, hNode⟩ :=
      Field.exists_bodyNode_eq quote refs { scope with conditions } field input
    rw [fragment, Fragment.body_append, Field.fragment, hNode]
    exact .cons (.question field attrs nodes input.isAskedBy) (ih scope)
  | group name label inside rest ihInside ihRest =>
    obtain ⟨caption, hCaption, hShown, hElement⟩ :=
      exists_caption_eq quote (scope.path ++ name) label
    rw [fragment, Fragment.body_append, Fragment.group, hCaption]
    exact .cons (.group name hShown hElement (ihInside (scope.group name))) (ihRest scope)

/-- The names on the way down to the empty elements of the instance are those that lead to the
sites, in order. -/
theorem emptyPathsAll_inst (scope : Scope) (o : Outline) :
    Node.emptyPathsAll (o.fragment quote refs scope).inst = o.sites.map Site.names := by
  induction o generalizing scope with
  | done => rw [fragment, Fragment.inst_empty, Node.emptyPathsAll, sites, List.map_nil]
  | question conditions field input rest ih =>
    rw [fragment, Fragment.inst_append, Field.fragment, List.singleton_append,
      Node.emptyPathsAll, Node.emptyPaths, ih, map_names_sites_question]
    rfl
  | group name label inside rest ihInside ihRest =>
    rw [fragment, Fragment.inst_append, Fragment.group, List.singleton_append,
      Node.emptyPathsAll, Node.emptyPaths, ihInside, ihRest, map_names_sites_group]

end Outline

end

/-! ## Binds and questions -/

/-- A path is a slash before names with slashes between them. -/
theorem pathOf_eq_intercalate {names : List String} (h : names ≠ []) :
    pathOf names = "/" ++ "/".intercalate names := by
  induction names with
  | nil => exact absurd rfl h
  | cons name names ih =>
    cases names with
    | nil => rw [pathOf_cons, pathOf_nil, String.append_empty, String.intercalate_singleton]
    | cons next names =>
      rw [pathOf_cons, ih (List.cons_ne_nil next names), String.intercalate_cons_cons]
      simp only [String.append_assoc]

namespace Leaf

/-- The path of a leaf below the instance root. -/
def below (leaf : Leaf) : String :=
  "/".intercalate leaf.names

/-- Where the answer to a leaf goes: to its destination, and without one to the path `path`. -/
def target (leaf : Leaf) (path : String) : String :=
  (leaf.field.destination.map Xml.escape).getD path

/-- How the body refers to a leaf. -/
def reference (options : Options) (leaf : Leaf) : String :=
  leaf.target (match options.bodyRefs with
    | .absolute => leaf.path options.instanceRoot
    | .relative => leaf.below)

end Leaf

namespace Document

/-- The bind of a leaf: it is made of nothing but the field and the input, it names where the answer
goes, and it has the type of the answer. -/
structure IsBind (options : Options) (leaf : Leaf) (bind : Node) : Prop where
  own : ∃ scope, bind = leaf.field.bind Xml.escape scope leaf.input
  name : bind.name = "bind"
  nodeset : bind.attrs.get? "nodeset" = some (leaf.target (leaf.path options.instanceRoot))
  type : ∃ element, leaf.input.IsAskedBy element (bind.attrs.get? "type")

/-- The question of a leaf in the body: it is made of nothing but the field and the input, it is the
element of its kind, and it refers to the leaf. -/
structure IsQuestion (options : Options) (leaf : Leaf) (question : Node) : Prop where
  own : ∃ scope, question = leaf.field.bodyNode Xml.escape options.bodyRefs scope leaf.input
  element : ∃ type, leaf.input.IsAskedBy question.name type
  ref : question.attrs.get? "ref" = some (leaf.reference options)

end Document

theorem Field.get?_type_bind (quote : String → String) (scope : Scope) (field : Field)
    (input : Input) :
    (field.bind quote scope input).attrs.get? "type" = input.bindType? := by
  simp [bind, Node.get?_attr?, Xml.Attributes.get?_set, Node.get?_empty]

namespace Site

variable (options : Options) (s : Site)

theorem nodeset_eq_target :
    s.field.nodeset Xml.escape (s.scope (.top options.instanceRoot)) =
      s.leaf.bare.target (s.leaf.bare.path options.instanceRoot) := by
  unfold Field.nodeset Leaf.target
  have hField : s.leaf.bare.field = s.field := rfl
  rw [hField]
  cases s.field.destination with
  | some destination => rfl
  | none => exact s.path_eq options.instanceRoot

theorem below_eq :
    (s.scope (.top options.instanceRoot)).below ++ s.field.name = s.leaf.bare.below := by
  have hBelow : "/" ++ ((s.scope (.top options.instanceRoot)).below ++ s.field.name) =
      pathOf s.names := Scope.below_inside_top options.instanceRoot s.above s.field.name
  have hNames : s.names ≠ [] := by
    unfold names
    exact List.append_ne_nil_of_right_ne_nil _ (List.cons_ne_nil _ _)
  rw [pathOf_eq_intercalate hNames] at hBelow
  exact (String.append_right_inj "/").1 hBelow

theorem bodyRef_eq_reference :
    s.field.bodyRef Xml.escape options.bodyRefs (s.scope (.top options.instanceRoot)) =
      s.leaf.bare.reference options := by
  unfold Field.bodyRef Leaf.reference Leaf.target
  have hField : s.leaf.bare.field = s.field := rfl
  rw [hField]
  cases s.field.destination with
  | some destination => rfl
  | none =>
    cases options.bodyRefs with
    | absolute => exact s.path_eq options.instanceRoot
    | relative => exact s.below_eq options

/-- The bind of a site is the bind of its leaf. -/
theorem isBind : Document.IsBind options s.leaf.bare
    (s.field.bind Xml.escape (s.scope (.top options.instanceRoot)) s.input) where
  own := ⟨_, rfl⟩
  name := Field.name_bind ..
  nodeset := by rw [Field.get?_nodeset_bind, nodeset_eq_target]
  type := by
    rw [Field.get?_type_bind]
    exact ⟨s.input.bodyTag, s.input.isAskedBy⟩

/-- The question of a site is the question of its leaf. -/
theorem isQuestion : Document.IsQuestion options s.leaf.bare
    (s.field.bodyNode Xml.escape options.bodyRefs (s.scope (.top options.instanceRoot))
      s.input) where
  own := ⟨_, rfl⟩
  element := by
    rw [Field.name_bodyNode]
    exact ⟨s.input.bindType?, s.input.isAskedBy⟩
  ref := by rw [Field.get?_ref_bodyNode, bodyRef_eq_reference]

end Site

/-! ## Documents -/

/-- The instance root holds the instance, whatever attributes it has. -/
theorem Fragment.exists_instanceRoot_eq (quote : String → String) (f : Fragment)
    (options : Options) :
    ∃ attrs, f.instanceRoot quote options = .parent options.instanceRoot attrs f.inst := by
  unfold instanceRoot
  cases options.formId with
  | none => exact ⟨_, rfl⟩
  | some formId => exact ⟨_, rfl⟩

/-- All four places of a document follow the forest that is left of a form once arms take the
place of their branch. The children of the instance root and those of the body are the forest,
node for node. Behind the instance and the translations, the model has one bind for each leaf of
the forest and nothing else. The empty elements of the instance, the binds and the questions of
the body belong to the leaves, one by one and in the order of the form. -/
theorem compile_mirrors_controls {form : Form} {options : Options} {doc : Node}
    (h : form.compile options = .ok doc) :
    ∃ attrs nodes itext binds body,
      doc.descend? ["h:head", "model"] = some (.parent "model" .empty
        (.parent "instance" .empty [.parent options.instanceRoot attrs nodes] :: itext :: binds)) ∧
      itext.name = "itext" ∧
      doc.descend? ["h:body"] = some (.parent "h:body" .empty body) ∧
      List.Forall₂ Control.InInstance form.flatten.controls nodes ∧
      List.Forall₂ Control.InBody form.flatten.controls body ∧
      Node.emptyPathsAll nodes = form.flatten.leaves.map Leaf.names ∧
      List.Forall₂ (Document.IsBind options) form.flatten.leaves binds ∧
      List.Forall₂ (Document.IsQuestion options) form.flatten.leaves (Document.questions doc) := by
  obtain ⟨-, -, rfl⟩ := compile_eq_ok_iff.1 h
  let f := form.fragment Xml.escape options
  obtain ⟨attrs, hRoot⟩ := f.exists_instanceRoot_eq Xml.escape options
  have hModel : (form.documentWith Xml.escape options).descend? ["h:head", "model"] =
      some (f.model Xml.escape options) := rfl
  refine ⟨attrs, f.inst, (f.translations Xml.escape options).itext, f.binds, f.body,
    ?_, rfl, rfl, ?_⟩
  · rw [hModel, Fragment.model, hRoot]
  · -- what the form contributes is what its outline does, and its flattening has that outline
    have hFragment : f = form.outline.fragment Xml.escape options.bodyRefs
        (.top options.instanceRoot) := fragment_outline Xml.escape form options
    rw [hFragment, ← controls_outline, leaves_flatten]
    refine ⟨Outline.inInstance_fragment _ _ _ _, Outline.inBody_fragment _ _ _ _, ?_, ?_, ?_⟩
    · rw [Outline.emptyPathsAll_inst, List.map_map]
      rfl
    · rw [Outline.binds_eq_map_sites, List.forall₂_map_left_iff, List.forall₂_map_right_iff]
      exact List.forall₂_same.2 fun s _ => s.isBind options
    · rw [Document.questions_documentWith, List.forall₂_map_left_iff, List.forall₂_map_right_iff]
      exact List.forall₂_same.2 fun s _ => s.isQuestion options

/-- A branch without arms, an empty group inside an arm, an arm that holds a branch, and a
question behind them all whose answer goes elsewhere. -/
def thicketForm : Form where
  title := "Thicket"
  controls := [
    .branch none [],
    .group "g" (some (.ofList [("en", "G")])) [
      .branch (some "b") [
        ⟨["a = 1"], [.group "h" none [],
          .branch none [⟨["a = 2", " "], [.question (Field.named "x") (.text none)]⟩]]⟩,
        ⟨[], [.question (Field.named "y") (.selectMany [⟨.empty, "v"⟩])]⟩]],
    .question { Field.named "z" with destination := some "/data/z0" } (.media .audio)]

theorem thicketForm_mirrors_controls :
    thicketForm.compile Options.default = .ok (thicketForm.documentWith Xml.escape .default) ∧
      thicketForm.flatten.controls = [
        .group "g" (some (.ofList [("en", "G")])) [.group "h" none [],
          .question (Field.named "x") (.text none),
          .question (Field.named "y") (.selectMany [⟨.empty, "v"⟩])],
        .question { Field.named "z" with destination := some "/data/z0" } (.media .audio)] ∧
      ∃ nodes binds,
        List.Forall₂ Control.InInstance thicketForm.flatten.controls nodes ∧
        Node.emptyPathsAll nodes = [["g", "x"], ["g", "y"], ["z"]] ∧
        List.Forall₂ (Document.IsBind .default) thicketForm.flatten.leaves binds ∧
        List.Forall₂ (Document.IsQuestion .default) thicketForm.flatten.leaves
          (Document.questions (thicketForm.documentWith Xml.escape .default)) := by
  have hCompile : thicketForm.compile Options.default =
      .ok (thicketForm.documentWith Xml.escape .default) := rfl
  obtain ⟨attrs, nodes, itext, binds, body, -, -, -, hInstance, -, hEmpty, hBinds, hQuestions⟩ :=
    compile_mirrors_controls hCompile
  have hNames : thicketForm.flatten.leaves.map Leaf.names = [["g", "x"], ["g", "y"], ["z"]] := rfl
  exact ⟨hCompile, rfl, nodes, binds, hInstance, hEmpty.trans hNames, hBinds, hQuestions⟩

end FormDesign
