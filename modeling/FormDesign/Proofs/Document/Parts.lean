import FormDesign.Document
import FormDesign.Proofs.Outline.Sites
import FormDesign.Proofs.Xml.Elements

/-!
# Parts of a document

What a reader of a document takes from it: the instance, the binds, the translations, and the
elements of the body that ask questions or show texts. The readers know only the names of the
elements on the way; that a document has these parts, one bind and one question for each site, is
what is shown.

## Main definitions

* `Document.instance?`, `Document.binds`, `Document.translations`;
* `Document.questions`, `Document.captions`: elements of the body in the order of the document;
* `Document.valueOf?`: the text inside an entry of a translation or inside an item to choose.

## Main results

* `instance?_documentWith`, `binds_documentWith`, `translations_documentWith`,
  `questions_documentWith`: the parts of the document of a form.
-/

namespace FormDesign

open Xml (Node)

/-- The names of the elements that ask questions. -/
def Input.bodyTags : List String :=
  ["input", "upload", "select1", "select"]

/-- Every kind of question has an element of the body. -/
theorem Input.bodyTag_mem (input : Input) : input.bodyTag ∈ bodyTags := by
  cases input <;> simp [bodyTag, bodyTags]

/-- The names of the elements that show texts. -/
def Caption.elements : List String :=
  ["label", "hint"]

namespace Document

/-- The element that holds the root of the instance. -/
def instance? (doc : Node) : Option Node :=
  doc.descend? ["h:head", "model", "instance"]

/-- The binds of the model, in order. -/
def binds (doc : Node) : List Node :=
  (doc.childrenAt ["h:head", "model"]).filter (·.name = "bind")

/-- The blocks of the translations, in order. -/
def translations (doc : Node) : List Node :=
  doc.childrenAt ["h:head", "model", "itext"]

/-- The elements of the body that have one of the names, in the order of the document. -/
def inBody (names : List String) (doc : Node) : List Node :=
  (doc.childrenAt ["h:body"]).flatMap (Node.named names)

/-- The text of the value inside an element. -/
def valueOf? (node : Node) : Option String :=
  (node.child? "value").bind Node.value?

/-- The elements of the body that ask questions, in the order of the document. -/
def questions (doc : Node) : List Node :=
  inBody Input.bodyTags doc

/-- The elements of the body that show texts, in the order of the document. -/
def captions (doc : Node) : List Node :=
  inBody Caption.elements doc

end Document

/-! ## Captions and questions -/

section

variable (quote : String → String)

/-- The captions of labels and hints are named `label` and `hint`. -/
theorem element_of_mem_captionOf {element path : String} {text : Option LocalizedText}
    {c : Caption} (h : c ∈ captionOf element path text) : c.element = element := by
  unfold captionOf at h
  split at h
  · rw [List.mem_singleton.1 h]
  · exact absurd h List.not_mem_nil

/-- A caption of a field is a label or a hint. -/
theorem Field.element_of_mem_captions {scope : Scope} {field : Field} {c : Caption}
    (h : c ∈ field.captions scope) : c.element ∈ Caption.elements := by
  rcases List.mem_append.1 h with hLabel | hHint
  · exact element_of_mem_captionOf hLabel ▸ List.mem_cons_self ..
  · exact element_of_mem_captionOf hHint ▸ List.mem_cons_of_mem _ (List.mem_cons_self ..)

/-- The element of a caption is found under its own name. -/
theorem Caption.named_node_of_mem {names : List String} {c : Caption} (h : c.element ∈ names) :
    (c.node quote).named names = [c.node quote] := by
  rw [Node.named_of_mem (by rwa [node, Node.name_attr])]
  rfl

/-- Where its own name is not asked for, nothing is found in the element of a caption. -/
theorem Caption.named_node_of_not_mem {names : List String} {c : Caption}
    (h : c.element ∉ names) : (c.node quote).named names = [] := by
  rw [Node.named_of_not_mem (by rwa [node, Node.name_attr])]
  rfl

/-- Elements that show texts and have one of the names are found one by one. -/
theorem Caption.named_map_node {names : List String} {captions : List Caption}
    (h : ∀ c ∈ captions, c.element ∈ names) :
    (captions.map (node quote)).flatMap (Node.named names) = captions.map (node quote) := by
  induction captions with
  | nil => rfl
  | cons c captions ih =>
    obtain ⟨hFirst, hRest⟩ := List.forall_mem_cons.1 h
    rw [List.map_cons, List.flatMap_cons, named_node_of_mem quote hFirst, ih hRest]
    rfl

/-- No caption asks a question. -/
theorem Caption.questions_node {c : Caption} (h : c.element ∈ elements) :
    (c.node quote).named Input.bodyTags = [] := by
  have hDisjoint : ∀ element ∈ elements, element ∉ Input.bodyTags := by decide
  exact named_node_of_not_mem quote (hDisjoint _ h)

namespace Field

theorem name_bind (scope : Scope) (field : Field) (input : Input) :
    (field.bind quote scope input).name = "bind" := by
  simp only [bind, Node.name_attr?, Node.name_attr]
  rfl

theorem name_bodyNode (refs : BodyRefs) (scope : Scope) (field : Field) (input : Input) :
    (field.bodyNode quote refs scope input).name = input.bodyTag := by
  rw [bodyNode, Node.name_attr?, Node.name_attr]
  rfl

theorem children_bodyNode (refs : BodyRefs) (scope : Scope) (field : Field) (input : Input) :
    (field.bodyNode quote refs scope input).children =
      (field.captions scope).map (Caption.node quote) ++ input.choices.zipIdx.map
        fun (choice, index) => field.choiceNode quote scope choice index := by
  rw [bodyNode, Node.children_attr?, Node.children_attr]
  rfl

variable (scope : Scope) (field : Field) (input : Input)

/-- A bind says what it is for, whatever other attributes it has. -/
theorem get?_nodeset_bind :
    (field.bind quote scope input).attrs.get? "nodeset" = some (field.nodeset quote scope) := by
  simp [bind, Node.get?_attr?, Xml.Attributes.get?_set]

/-- A bind says when its question is asked, if there is a condition. -/
theorem get?_relevant_bind : (field.bind quote scope input).attrs.get? "relevant" =
    conjunction ((field.relevanceClauses scope).map quote) := by
  simp [bind, Node.get?_attr?, Xml.Attributes.get?_set, Node.get?_empty]

/-- A bind says what its answer must satisfy, if there is a constraint. -/
theorem get?_constraint_bind : (field.bind quote scope input).attrs.get? "constraint" =
    conjunction ((field.constraintClauses input).map quote) := by
  simp [bind, Node.get?_attr?, Xml.Attributes.get?_set, Node.get?_empty]

/-- The element that asks a question says what it refers to. -/
theorem get?_ref_bodyNode (refs : BodyRefs) :
    (field.bodyNode quote refs scope input).attrs.get? "ref" =
      some (field.bodyRef quote refs scope) := by
  simp [bodyNode, Node.get?_attr?, Xml.Attributes.get?_set]

/-- An element that asks a question holds no other. -/
theorem questions_bodyNode (refs : BodyRefs) (scope : Scope) (field : Field) (input : Input) :
    (field.bodyNode quote refs scope input).named Input.bodyTags =
      [field.bodyNode quote refs scope input] := by
  have hName : (field.bodyNode quote refs scope input).name ∈ Input.bodyTags := by
    rw [name_bodyNode]
    exact input.bodyTag_mem
  rw [Node.named_of_mem hName, children_bodyNode, List.cons.injEq, List.flatMap_eq_nil_iff]
  refine ⟨rfl, fun child hChild => ?_⟩
  rcases List.mem_append.1 hChild with hCaption | hChoice
  · obtain ⟨c, hc, rfl⟩ := List.mem_map.1 hCaption
    exact Caption.questions_node quote (element_of_mem_captions hc)
  · obtain ⟨⟨choice, index⟩, -, rfl⟩ := List.mem_map.1 hChoice
    rfl

end Field

/-- There is one question in the body for each site, in order. -/
theorem Outline.questions_eq_map_sites (refs : BodyRefs) (scope : Scope) (o : Outline) :
    (o.fragment quote refs scope).body.flatMap (Node.named Input.bodyTags) =
      o.sites.map fun s => s.field.bodyNode quote refs (s.scope scope) s.input := by
  induction o generalizing scope with
  | done => rfl
  | question conditions field input rest ih =>
    rw [fragment, Fragment.body_append, List.flatMap_append, ih, sites, List.map_cons,
      List.map_map, Field.fragment, List.flatMap_singleton, Field.questions_bodyNode]
    rfl
  | group name label inside rest ihInside ihRest =>
    -- neither the element of the group nor its label asks a question
    have hGroup : (Node.parent "group" .empty
        ((captionOf "label" (scope.path ++ name) label).map (Caption.node quote) ++
          (inside.fragment quote refs (scope.group name)).body)).named Input.bodyTags =
        inside.sites.map fun s =>
          s.field.bodyNode quote refs (s.scope (scope.group name)) s.input := by
      have hName : "group" ∉ Input.bodyTags := by decide
      have hLabel :
          ((captionOf "label" (scope.path ++ name) label).map (Caption.node quote)).flatMap
            (Node.named Input.bodyTags) = [] := by
        rw [List.flatMap_eq_nil_iff]
        intro child hChild
        obtain ⟨c, hc, rfl⟩ := List.mem_map.1 hChild
        exact Caption.questions_node quote (element_of_mem_captionOf hc ▸ List.mem_cons_self ..)
      rw [Node.named_of_not_mem hName, Node.children, List.flatMap_append, hLabel, ihInside,
        List.nil_append]
    rw [fragment, Fragment.body_append, List.flatMap_append, ihRest, sites, List.map_append,
      List.map_map, List.map_map, Fragment.group, List.flatMap_singleton, hGroup]
    rfl

/-! ## Documents -/

namespace Fragment

variable (f : Fragment) (options : Options)

theorem name_instanceRoot : (f.instanceRoot quote options).name = options.instanceRoot :=
  Node.name_attr? ..

theorem children_instanceRoot : (f.instanceRoot quote options).children = f.inst :=
  Node.children_attr? ..

/-- The translations of a document hold a block for each active language. -/
theorem itext_translations : (f.translations quote options).itext =
    .parent "itext" .empty (options.languages.map (Translations.block quote f.texts)) :=
  Translations.itext_registerAll options.languages f.texts

/-- Each language has a block for the texts of the fragment. -/
theorem translations_document (title : String) :
    Document.translations (f.document quote title options) =
      options.languages.map (Translations.block quote f.texts) := by
  have hItext : Document.translations (f.document quote title options) =
      (f.translations quote options).itext.children := rfl
  rw [hItext, itext_translations, Node.children]

/-- The instance and the translations stand before the binds and are named otherwise. -/
theorem binds_document (title : String) :
    Document.binds (f.document quote title options) = f.binds.filter (·.name = "bind") := by
  have hChildren : (f.document quote title options).childrenAt ["h:head", "model"] =
      .parent "instance" .empty [f.instanceRoot quote options] ::
        (f.translations quote options).itext :: f.binds := rfl
  rw [Document.binds, hChildren, List.filter_cons_of_neg (by simp [Node.name]),
    List.filter_cons_of_neg (by simp [Translations.itext, Node.name])]

end Fragment

namespace Document

variable (form : Form) (options : Options)

/-- The instance of a document holds its root and nothing else. -/
theorem instance?_documentWith : instance? (form.documentWith quote options) =
    some (.parent "instance" .empty [(form.fragment quote options).instanceRoot quote options]) :=
  rfl

/-- The blocks of a document are found where they are put. -/
theorem translations_documentWith : translations (form.documentWith quote options) =
    options.languages.map (Translations.block quote (form.fragment quote options).texts) :=
  Fragment.translations_document quote _ options form.title

/-- A form contributes one bind for each site, in order. -/
theorem binds_fragment : (form.fragment quote options).binds =
    form.sites.map fun s =>
      s.field.bind quote (s.scope (.top options.instanceRoot)) s.input := by
  rw [fragment_outline]
  exact Outline.binds_eq_map_sites quote options.bodyRefs _ form.outline

/-- What stands among the binds is one. -/
theorem name_of_mem_binds {node : Node} (h : node ∈ (form.fragment quote options).binds) :
    node.name = "bind" := by
  rw [binds_fragment] at h
  obtain ⟨s, -, rfl⟩ := List.mem_map.1 h
  exact Field.name_bind quote _ s.field s.input

/-- The document of a form has one bind for each site, in order. -/
theorem binds_documentWith : binds (form.documentWith quote options) =
    form.sites.map fun s =>
      s.field.bind quote (s.scope (.top options.instanceRoot)) s.input := by
  rw [Form.documentWith, Fragment.binds_document, ← binds_fragment, List.filter_eq_self]
  exact fun node hNode => decide_eq_true (name_of_mem_binds quote form options hNode)

/-- The document of a form has one question for each site, in order. -/
theorem questions_documentWith : questions (form.documentWith quote options) =
    form.sites.map fun s =>
      s.field.bodyNode quote options.bodyRefs (s.scope (.top options.instanceRoot)) s.input := by
  have hBody : (form.documentWith quote options).childrenAt ["h:body"] =
      (form.fragment quote options).body := rfl
  rw [questions, inBody, hBody, fragment_outline]
  exact Outline.questions_eq_map_sites quote options.bodyRefs _ form.outline

end Document

end

end FormDesign
