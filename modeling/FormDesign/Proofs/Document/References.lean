import FormDesign.Proofs.Document.Parts
import FormDesign.Proofs.Outline.Leaves

/-!
# References of the body

The body refers to the answers by their absolute paths, or by their paths below the instance root.
Both are handed down the form side by side, and groups make both longer; that they never part is an
invariant of the scopes on the way. So the two kinds of references give the same document, but for
the references themselves, and these differ by the root alone.

## Main definitions

* `Scope.IsUnder`: the absolute path of a scope is the one below the root, behind the root;
* `Document.withoutRefs`: a document whose questions refer to nothing;
* `Document.RefersAlike`: one question of the body with both kinds of references;
* `Document.RefersToBind`: a question of the body and its bind.

## Main results

* `Scope.isUnder_inside`: the invariant holds inside all groups;
* `withoutRefs_documentWith`: the two documents are the same but for the references of the body;
* `compile_references_agree`: all of this for the result of compiling a form.
-/

namespace FormDesign

open Xml (Node Attributes)

/-! ## Scopes -/

namespace Scope

/-- The absolute path of a scope is its path below the instance root, behind the root. -/
def IsUnder (root : String) (scope : Scope) : Prop :=
  scope.path = "/" ++ root ++ "/" ++ scope.below

theorem isUnder_top (root : String) : (top root).IsUnder root :=
  (String.append_empty (s := "/" ++ root ++ "/")).symm

/-- A group makes both paths longer, and by the same names. -/
theorem IsUnder.group {root : String} {scope : Scope} (h : scope.IsUnder root) (name : String) :
    (scope.group name).IsUnder root := by
  rw [IsUnder] at h ⊢
  rw [path_group, below_group, h]
  simp only [String.append_assoc]

/-- However deep the groups, the two paths of a scope do not part. -/
theorem isUnder_inside {root : String} {scope : Scope} (h : scope.IsUnder root)
    (groups : List String) : (scope.inside groups).IsUnder root := by
  induction groups generalizing scope with
  | nil => exact h
  | cons name groups ih => exact ih (h.group name)

end Scope

end FormDesign

/-! ## Attributes that are set again -/

namespace FormDesign.Xml

/-- A value that is set again is as if it had not been set before. -/
theorem Attributes.set_set (attrs : Attributes) (key first value : String) :
    (attrs.set key first).set key value = attrs.set key value := by
  apply eq_of_entries_eq
  simp only [set]
  induction attrs.entries with
  | nil => simp [setEntry]
  | cons entry entries ih => by_cases h : entry.1 = key <;> simp [setEntry, h, ih]

namespace Node

mutual

/-- The tree in which `key` says nothing in the elements that have one of the names. -/
def blank (names : List String) (key : String) : Node → Node
  | empty name attrs => empty name (if name ∈ names then attrs.set key "" else attrs)
  | text name attrs value => text name (if name ∈ names then attrs.set key "" else attrs) value
  | parent name attrs children =>
    parent name (if name ∈ names then attrs.set key "" else attrs) (blankAll names key children)

/-- Trees in which `key` says nothing in the elements that have one of the names. -/
def blankAll (names : List String) (key : String) : List Node → List Node
  | [] => []
  | node :: nodes => blank names key node :: blankAll names key nodes

end

theorem blankAll_eq_map (names : List String) (key : String) (nodes : List Node) :
    blankAll names key nodes = nodes.map (blank names key) := by
  induction nodes with
  | nil => rfl
  | cons node nodes ih => rw [blankAll, ih, List.map_cons]

theorem blank_parent {names : List String} {name : String} (h : name ∉ names) (key : String)
    (attrs : Attributes) (children : List Node) :
    (parent name attrs children).blank names key =
      parent name attrs (children.map (blank names key)) := by
  rw [blank, if_neg h, blankAll_eq_map]

/-- What an element said under `key` does not count when it is blanked. -/
theorem blank_attr {names : List String} {node : Node} (h : node.name ∈ names)
    (key value : String) : (node.attr key value).blank names key = node.blank names key := by
  cases node <;> rw [name] at h <;>
    simp only [attr, withAttrs, attrs, blank, if_pos h, Attributes.set_set]

end Node

end FormDesign.Xml

namespace FormDesign

open Xml (Node Attributes)

/-! ## Questions -/

section

variable (quote : String → String) (scope : Scope) (field : Field) (input : Input)

namespace Field

/-- The bind of a question is for what the question refers to absolutely. -/
theorem nodeset_eq_bodyRef : field.nodeset quote scope = field.bodyRef quote .absolute scope := by
  unfold nodeset bodyRef
  cases field.destination <;> rfl

/-- A destination is referred to in either way alike. -/
theorem bodyRef_of_destination (h : field.destination ≠ none) (refs : BodyRefs) :
    field.bodyRef quote refs scope = field.bodyRef quote .absolute scope := by
  obtain ⟨destination, hDestination⟩ := Option.ne_none_iff_exists'.1 h
  simp only [bodyRef, hDestination]

theorem bodyRef_relative (h : field.destination = none) :
    field.bodyRef quote .relative scope = scope.below ++ field.name := by
  simp only [bodyRef, h]

/-- A question with a destination is the same in either way. -/
theorem bodyNode_eq_of_destination (h : field.destination ≠ none) :
    field.bodyNode quote .absolute scope input = field.bodyNode quote .relative scope input := by
  rw [bodyNode, bodyNode, bodyRef_of_destination quote scope field h .relative]

/-- A question without a destination refers absolutely by its path. -/
theorem bodyNode_absolute (h : field.destination = none) :
    field.bodyNode quote .absolute scope input =
      (field.bodyNode quote .relative scope input).attr "ref" (field.path scope) := by
  simp only [bodyNode, bodyRef, h]
  cases input.mediaType? <;> rfl

/-- Blanked, a question is the same whichever way it refers. -/
theorem blank_bodyNode :
    (field.bodyNode quote .absolute scope input).blank Input.bodyTags "ref" =
      (field.bodyNode quote .relative scope input).blank Input.bodyTags "ref" := by
  by_cases h : field.destination = none
  · have hName : (field.bodyNode quote .relative scope input).name ∈ Input.bodyTags := by
      rw [name_bodyNode]
      exact input.bodyTag_mem
    rw [bodyNode_absolute quote scope field input h, Node.blank_attr hName]
  · rw [bodyNode_eq_of_destination quote scope field input h]

end Field

end

/-! ## Documents up to references -/

/-- The document whose questions refer to nothing. -/
def Document.withoutRefs (doc : Node) : Node :=
  doc.onChildren "h:body" (Node.blank Input.bodyTags "ref")

/-- What is contributed, with questions that refer to nothing. -/
def Fragment.withoutRefs (f : Fragment) : Fragment where
  inst := f.inst
  body := f.body.map (Node.blank Input.bodyTags "ref")
  binds := f.binds
  texts := f.texts

section

variable (quote : String → String)

namespace Fragment

theorem withoutRefs_append (a b : Fragment) :
    (a ++ b).withoutRefs = a.withoutRefs ++ b.withoutRefs :=
  ext_parts rfl List.map_append rfl rfl

/-- What a group contributes without references is made of what its members contribute without. -/
theorem withoutRefs_group_congr {scope : Scope} {name : String} {label : Option LocalizedText}
    {f g : Fragment} (h : f.withoutRefs = g.withoutRefs) :
    (group quote scope name label f).withoutRefs =
      (group quote scope name label g).withoutRefs := by
  rw [withoutRefs, withoutRefs, mk.injEq] at h
  obtain ⟨hInst, hBody, hBinds, hTexts⟩ := h
  have hName : "group" ∉ Input.bodyTags := by decide
  refine ext_parts ?_ ?_ hBinds ?_
  · simp only [withoutRefs, group, hInst]
  · simp only [withoutRefs, group, List.map_singleton, Node.blank_parent hName, List.map_append,
      hBody]
  · simp only [withoutRefs, group, hTexts]

/-- The questions stand in the body of a document. -/
theorem withoutRefs_document (f : Fragment) (title : String) (options : Options) :
    Document.withoutRefs (f.document quote title options) =
      f.withoutRefs.document quote title options := by
  have hName : "h:body" ∉ Input.bodyTags := by decide
  have hBody := Node.blank_parent hName "ref" .empty f.body
  have hDocument : Document.withoutRefs (f.document quote title options) =
      .parent "h:html" (.ofList namespaces) [
        .parent "h:head" .empty [.text "h:title" .empty (quote title), f.model quote options],
        (Node.parent "h:body" .empty f.body).blank Input.bodyTags "ref"] := rfl
  rw [hDocument, hBody]
  rfl

end Fragment

/-- What an outline contributes does not depend on how questions refer, but for the references. -/
theorem Outline.withoutRefs_fragment (scope : Scope) (o : Outline) :
    (o.fragment quote .absolute scope).withoutRefs =
      (o.fragment quote .relative scope).withoutRefs := by
  -- for all scopes at once, as a group hands a longer one down
  induction o generalizing scope with
  | done => rfl
  | question conditions field input rest ih =>
    have hQuestion : (field.fragment quote .absolute { scope with conditions } input).withoutRefs =
        (field.fragment quote .relative { scope with conditions } input).withoutRefs := by
      refine Fragment.ext_parts rfl ?_ rfl rfl
      simp only [Fragment.withoutRefs, Field.fragment, List.map_singleton, Field.blank_bodyNode]
    rw [fragment, fragment, Fragment.withoutRefs_append, Fragment.withoutRefs_append, hQuestion, ih]
  | group name label inside rest ihInside ihRest =>
    rw [fragment, fragment, Fragment.withoutRefs_append, Fragment.withoutRefs_append, ihRest,
      Fragment.withoutRefs_group_congr quote (ihInside (scope.group name))]

/-- The two documents of a form are the same but for the references of the body. -/
theorem withoutRefs_documentWith (form : Form) (options : Options) :
    Document.withoutRefs (form.documentWith quote { options with bodyRefs := .absolute }) =
      Document.withoutRefs (form.documentWith quote { options with bodyRefs := .relative }) := by
  rw [Form.documentWith, Form.documentWith, Fragment.withoutRefs_document,
    Fragment.withoutRefs_document, fragment_outline, fragment_outline, Outline.withoutRefs_fragment]
  rfl

end

/-! ## Single questions -/

namespace Document

/-- A question that refers absolutely and the same question that refers relatively. With a
destination they are equal; without one the references differ, and nothing else: the absolute one is
the relative one behind the instance root. -/
structure RefersAlike (root : String) (leaf : Leaf) (absolute relative : Node) : Prop where
  destined : leaf.field.destination ≠ none → absolute = relative
  free : leaf.field.destination = none → ∃ ref, relative.attrs.get? "ref" = some ref ∧
    absolute = relative.attr "ref" ("/" ++ root ++ "/" ++ ref)

/-- A question and the bind of the same leaf. The question refers to what the bind is for, or, where
there is no destination and references are relative, to that below the instance root. -/
structure RefersToBind (options : Options) (leaf : Leaf) (bind question : Node) : Prop where
  same : options.bodyRefs = .absolute ∨ leaf.field.destination ≠ none →
    ∃ ref, question.attrs.get? "ref" = some ref ∧ bind.attrs.get? "nodeset" = some ref
  below : options.bodyRefs = .relative → leaf.field.destination = none →
    ∃ ref, question.attrs.get? "ref" = some ref ∧
      bind.attrs.get? "nodeset" = some ("/" ++ options.instanceRoot ++ "/" ++ ref)

end Document

namespace Site

variable (quote : String → String) (s : Site) (root : String)

/-- The path of a site is its path below the instance root, behind the root. -/
theorem path_eq_below : s.field.path (s.scope (.top root)) =
    "/" ++ root ++ "/" ++ ((s.scope (.top root)).below ++ s.field.name) := by
  have hUnder : (s.scope (.top root)).path = "/" ++ root ++ "/" ++ (s.scope (.top root)).below :=
    Scope.isUnder_inside (Scope.isUnder_top root) s.above
  rw [Field.path, hUnder]
  simp only [String.append_assoc]

theorem refersAlike {leaf : Leaf} (hField : leaf.field = s.field) :
    Document.RefersAlike root leaf
      (s.field.bodyNode quote .absolute (s.scope (.top root)) s.input)
      (s.field.bodyNode quote .relative (s.scope (.top root)) s.input) where
  destined h := Field.bodyNode_eq_of_destination quote _ _ _ (hField ▸ h)
  free h := by
    rw [hField] at h
    refine ⟨(s.scope (.top root)).below ++ s.field.name, ?_, ?_⟩
    · rw [Field.get?_ref_bodyNode, Field.bodyRef_relative quote _ _ h]
    · rw [Field.bodyNode_absolute quote _ _ _ h, s.path_eq_below root]

theorem refersToBind {leaf : Leaf} (hField : leaf.field = s.field) (options : Options) :
    Document.RefersToBind options leaf
      (s.field.bind quote (s.scope (.top options.instanceRoot)) s.input)
      (s.field.bodyNode quote options.bodyRefs (s.scope (.top options.instanceRoot)) s.input) where
  same h := by
    refine ⟨_, Field.get?_ref_bodyNode .., ?_⟩
    rw [Field.get?_nodeset_bind, Field.nodeset_eq_bodyRef]
    obtain hAbsolute | hDestination := h
    · rw [hAbsolute]
    · rw [Field.bodyRef_of_destination quote _ _ (hField ▸ hDestination) options.bodyRefs]
  below hRelative h := by
    rw [hField] at h
    refine ⟨_, Field.get?_ref_bodyNode .., ?_⟩
    have hNodeset : s.field.nodeset quote (s.scope (.top options.instanceRoot)) =
        s.field.path (s.scope (.top options.instanceRoot)) := by rw [Field.nodeset, h]
    rw [Field.get?_nodeset_bind, hNodeset, hRelative, Field.bodyRef_relative quote _ _ h,
      s.path_eq_below options.instanceRoot]

end Site

/-! ## Compiled forms -/

/-- Whether a form can be compiled, and why not, does not depend on how questions refer. -/
theorem compile_eq_error_iff_of_refs (form : Form) (options : Options) (refs : BodyRefs)
    (defect : Defect) : form.compile { options with bodyRefs := refs } = .error defect ↔
      form.compile options = .error defect := by
  have hCheck : ({ options with bodyRefs := refs } : Options).check = options.check := rfl
  rw [Form.compile, Form.compile, hCheck]
  cases options.check with
  | error d => exact Iff.rfl
  | ok u =>
    cases form.check with
    | error d => exact Iff.rfl
    | ok u => constructor <;> intro hError <;> cases hError

/-- For every form and all options that differ in nothing but the references, both compilations fail
with the same defect, or both succeed. Then the two documents are equal once the questions of the
body refer to nothing; and the two questions of a leaf are equal if it has a destination, and
otherwise differ in the reference alone, where the absolute one is the relative one behind the
instance root. In each document a question refers to what the bind of its leaf is for, except that a
relative reference leaves the instance root out where there is no destination. -/
theorem compile_references_agree (form : Form) (options : Options) :
    (∀ defect, form.compile { options with bodyRefs := .absolute } = .error defect ↔
      form.compile { options with bodyRefs := .relative } = .error defect) ∧
    (∀ absolute relative, form.compile { options with bodyRefs := .absolute } = .ok absolute →
      form.compile { options with bodyRefs := .relative } = .ok relative →
      Document.withoutRefs absolute = Document.withoutRefs relative ∧
      ∃ pairs, Document.questions absolute = pairs.map Prod.fst ∧
        Document.questions relative = pairs.map Prod.snd ∧
        List.Forall₂ (fun leaf pair => Document.RefersAlike options.instanceRoot leaf pair.1 pair.2)
          form.leaves pairs) ∧
    ∀ doc, form.compile options = .ok doc →
      ∃ pairs, Document.binds doc = pairs.map Prod.fst ∧
        Document.questions doc = pairs.map Prod.snd ∧
        List.Forall₂ (fun leaf pair => Document.RefersToBind options leaf pair.1 pair.2)
          form.leaves pairs := by
  refine ⟨fun defect => ?_, fun absolute relative hAbsolute hRelative => ⟨?_, ?_⟩, fun doc h => ?_⟩
  · have hAbsolute := compile_eq_error_iff_of_refs form options .absolute defect
    exact hAbsolute.trans (compile_eq_error_iff_of_refs form options .relative defect).symm
  · obtain ⟨-, -, rfl⟩ := compile_eq_ok_iff.1 hAbsolute
    obtain ⟨-, -, rfl⟩ := compile_eq_ok_iff.1 hRelative
    exact withoutRefs_documentWith Xml.escape form options
  · obtain ⟨-, -, rfl⟩ := compile_eq_ok_iff.1 hAbsolute
    obtain ⟨-, -, rfl⟩ := compile_eq_ok_iff.1 hRelative
    let top := Scope.top options.instanceRoot
    refine ⟨form.sites.map fun s =>
      (s.field.bodyNode Xml.escape .absolute (s.scope top) s.input,
        s.field.bodyNode Xml.escape .relative (s.scope top) s.input), ?_, ?_, ?_⟩
    · rw [Document.questions_documentWith, List.map_map]
      rfl
    · rw [Document.questions_documentWith, List.map_map]
      rfl
    · refine forall₂_leaves_map_sites form fun leaf s h => ?_
      have hField : leaf.field = s.field := congrArg Leaf.field h
      exact s.refersAlike Xml.escape options.instanceRoot hField
  · obtain ⟨-, -, rfl⟩ := compile_eq_ok_iff.1 h
    let top := Scope.top options.instanceRoot
    refine ⟨form.sites.map fun s => (s.field.bind Xml.escape (s.scope top) s.input,
      s.field.bodyNode Xml.escape options.bodyRefs (s.scope top) s.input), ?_, ?_, ?_⟩
    · rw [Document.binds_documentWith, List.map_map]
      rfl
    · rw [Document.questions_documentWith, List.map_map]
      rfl
    · refine forall₂_leaves_map_sites form fun leaf s h => ?_
      have hField : leaf.field = s.field := congrArg Leaf.field h
      exact s.refersToBind Xml.escape hField options

/-- A question in two groups and under a condition, and one behind them whose answer goes to a place
that looks like a relative path. -/
def stationsForm : Form where
  title := "Stations"
  controls := [
    .group "line" none [.branch none [⟨["/data/a = 1"], [
      .group "stop" none [.question (Field.named "when") .date]]⟩]],
    .question { Field.named "where" with destination := some "line/place" } .location]

theorem compile_references_agree_stations :
    let relatively := { Options.default with bodyRefs := .relative }
    let absolute := stationsForm.documentWith Xml.escape .default
    let relative := stationsForm.documentWith Xml.escape relatively
    stationsForm.compile .default = .ok absolute ∧
      Document.withoutRefs absolute = Document.withoutRefs relative ∧
      (Document.questions absolute).map (fun q => q.attrs.get? "ref") =
        [some "/data/line/stop/when", some "line/place"] ∧
      (Document.questions relative).map (fun q => q.attrs.get? "ref") =
        [some "line/stop/when", some "line/place"] ∧
      (∃ pairs, Document.questions absolute = pairs.map Prod.fst ∧
        Document.questions relative = pairs.map Prod.snd ∧
        List.Forall₂ (fun leaf pair => Document.RefersAlike "data" leaf pair.1 pair.2)
          stationsForm.leaves pairs) ∧
      ∃ pairs, Document.binds relative = pairs.map Prod.fst ∧
        Document.questions relative = pairs.map Prod.snd ∧
        List.Forall₂ (fun leaf pair => Document.RefersToBind relatively leaf pair.1 pair.2)
          stationsForm.leaves pairs := by
  intro relatively absolute relative
  have hRelative : stationsForm.compile { Options.default with bodyRefs := .relative } =
      .ok (stationsForm.documentWith Xml.escape { Options.default with bodyRefs := .relative }) :=
    rfl
  obtain ⟨-, hOk, -⟩ := compile_references_agree stationsForm .default
  obtain ⟨-, -, hBinds⟩ := compile_references_agree stationsForm relatively
  obtain ⟨hDocuments, hPairs⟩ := hOk absolute relative rfl hRelative
  exact ⟨rfl, hDocuments, rfl, rfl, hPairs, hBinds relative hRelative⟩

end FormDesign
