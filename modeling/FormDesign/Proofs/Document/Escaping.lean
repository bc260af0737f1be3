import FormDesign.Proofs.Decimal.Plain
import FormDesign.Proofs.Document.Captions

/-!
# Texts are escaped once

A document in which texts are written as they are, `documentWith id`, is the document of the
compiler with nothing escaped. The compiler escapes every text of the form where it is placed,
some of them before they are put together: clauses before they are joined, keys inside a
reference, destinations that are used twice. The result is still the plain document with
`escape` applied once to every text and to every value of an attribute.

Paths are made of names, which hold nothing that would be escaped, so the parts of the document
that are not escaped when they are placed do not change either. Language codes are the one text
that is placed as it is and need not be a name.

## Main results

* `fragment_escape`: the contribution of an outline, part by part;
* `documentWith_escape`: the whole document, for language codes with nothing to escape;
* `readsBack_documentWith`: what the form and the options say is read from the document;
* `compile_escapes_once`: the same for what the compiler answers, and back.
-/

namespace FormDesign

open Xml (Node Attributes escape IsPlain escape_append escape_of_isPlain isPlain_append)

/-! ## Clauses -/

/-- Texts that are joined by a plain separator may be escaped before or after. -/
theorem escape_intercalate {separator : String} (h : IsPlain separator) (clauses : List String) :
    escape (separator.intercalate clauses) = separator.intercalate (clauses.map escape) := by
  induction clauses with
  | nil => rw [List.map_nil, String.intercalate_nil]; rfl
  | cons clause clauses ih =>
    cases clauses with
    | nil => simp only [List.map_cons, List.map_nil, String.intercalate_singleton]
    | cons next clauses =>
      rw [List.map_cons] at ih
      rw [List.map_cons, List.map_cons, String.intercalate_cons_cons,
        String.intercalate_cons_cons, escape_append, escape_append, escape_of_isPlain h, ih]

/-- Clauses may be escaped one by one or when they have been joined. -/
theorem conjunction_map_escape (clauses : List String) :
    conjunction (clauses.map escape) = (conjunction clauses).map escape := by
  by_cases h : clauses = []
  · subst h; rfl
  · -- parentheses and the word between clauses hold nothing that is escaped
    have hMap : clauses.map escape ≠ [] := by simpa using h
    have hSeparator : IsPlain ") and (" := by decide
    rw [conjunction, conjunction, if_neg h, if_neg hMap, Option.map_some, escape_append,
      escape_append, escape_intercalate hSeparator]
    rfl

/-- Bounds are written with numbers, so that only the signs between them are escaped. -/
theorem Bounds.escape_clause (b : Bounds) :
    escape b.clause =
      s!". &gt; {Decimal.plainText b.min} and . &lt; {Decimal.plainText b.max}" := by
  change escape (". > " ++ Decimal.plainText b.min ++ " and . < " ++ Decimal.plainText b.max) =
    ". &gt; " ++ Decimal.plainText b.min ++ " and . &lt; " ++ Decimal.plainText b.max
  have hMin := escape_of_isPlain (Decimal.isPlain_plainText b.min)
  have hMax := escape_of_isPlain (Decimal.isPlain_plainText b.max)
  rw [escape_append, escape_append, escape_append, hMin, hMax]
  rfl

/-! ## Scopes and names -/

/-- A scope whose paths have nothing in them that would be escaped. -/
structure Scope.IsPlain (scope : Scope) : Prop where
  path : Xml.IsPlain scope.path
  below : Xml.IsPlain scope.below

/-- No character of a name is reserved. -/
theorem isPlain_of_isName {name : String} (h : Text.isName name = true) : IsPlain name := by
  intro c hc
  rw [Bool.eq_false_iff]
  intro hReserved
  rcases Xml.eq_of_isReserved hReserved with rfl | rfl | rfl | rfl
  all_goals exact Text.not_mem_of_isName h (by decide) hc

/-- The paths of the outermost scope are plain, since the root is a name. -/
theorem Scope.isPlain_top {root : String} (h : Text.isName root = true) :
    (Scope.top root).IsPlain where
  path := isPlain_append (isPlain_append (by decide) (isPlain_of_isName h)) (by decide)
  below := by
    rw [below_top]
    decide

/-- The paths of a group are plain where those around it are, if it is named as an element is. -/
theorem Scope.IsPlain.group {scope : Scope} (hScope : scope.IsPlain) {name : String}
    (h : Text.isName name = true) : (scope.group name).IsPlain where
  path := by
    rw [path_group]
    exact isPlain_append (isPlain_append hScope.path (isPlain_of_isName h)) (by decide)
  below := by
    rw [below_group]
    exact isPlain_append (isPlain_append hScope.below (isPlain_of_isName h)) (by decide)

/-! ## Questions -/

variable {scope : Scope}

/-- A caption refers to its text by a key, which is escaped like every other value. -/
theorem Caption.node_escape (c : Caption) : c.node escape = (c.node id).mapTexts escape := by
  have hRef : s!"jr:itext('{escape c.path}')" = escape s!"jr:itext('{c.path}')" := by
    change "jr:itext('" ++ escape c.path ++ "')" = escape ("jr:itext('" ++ c.path ++ "')")
    rw [escape_append, escape_append]
    rfl
  rw [node, node, Node.mapTexts_attr, hRef]
  rfl

namespace Field

variable {field : Field}

/-- The path of a field is left as it is by escaping. -/
theorem escape_path (hScope : scope.IsPlain) (hName : Text.isName field.name = true) :
    escape (field.path scope) = field.path scope :=
  escape_of_isPlain (isPlain_append hScope.path (isPlain_of_isName hName))

/-- What a bind is for is escaped once, be it the path of the field or its destination. -/
theorem nodeset_escape (hScope : scope.IsPlain) (hName : Text.isName field.name = true) :
    field.nodeset escape scope = escape (field.nodeset id scope) := by
  unfold nodeset
  cases field.destination with
  | none => exact (escape_path hScope hName).symm
  | some destination => rfl

/-- What a question refers to is escaped once, whichever way it refers. -/
theorem bodyRef_escape (refs : BodyRefs) (hScope : scope.IsPlain)
    (hName : Text.isName field.name = true) :
    field.bodyRef escape refs scope = escape (field.bodyRef id refs scope) := by
  unfold bodyRef
  cases field.destination with
  | some destination => rfl
  | none =>
    cases refs with
    | absolute => exact (escape_path hScope hName).symm
    | relative =>
      exact (escape_of_isPlain (isPlain_append hScope.below (isPlain_of_isName hName))).symm

/-- The bind of a field is escaped once in every attribute, each clause before they are joined. -/
theorem bind_escape (input : Input) (hScope : scope.IsPlain)
    (hName : Text.isName field.name = true) :
    field.bind escape scope input = (field.bind id scope input).mapTexts escape := by
  -- types and flags are words of the format, which escaping leaves alone
  have hType : input.bindType?.map escape = input.bindType? := by
    rcases input with _ | ⟨_ | _, _⟩ | _ | _ | _ | _ | _ <;> rfl
  have hFlag : ∀ flag : Bool, (if flag then some "true()" else none).map escape =
      if flag then some "true()" else none := by decide
  unfold bind
  simp only [Node.mapTexts_attr?, Node.mapTexts_attr, hType, hFlag, List.map_id,
    ← conjunction_map_escape, nodeset_escape hScope hName]
  rfl

/-- The value of a choice and the key of its text are escaped once. -/
theorem choiceNode_escape (choice : Choice) (index : Nat) :
    field.choiceNode escape scope choice index =
      (field.choiceNode id scope choice index).mapTexts escape := by
  simp only [choiceNode, Caption.node_escape, Node.mapTexts_parent, Node.mapTexts_text,
    List.map_cons, List.map_nil, Attributes.mapValues_empty, id]

/-- The element that asks a question is escaped once, and so is all that is in it. -/
theorem bodyNode_escape (refs : BodyRefs) (input : Input) (hScope : scope.IsPlain)
    (hName : Text.isName field.name = true) :
    field.bodyNode escape refs scope input =
      (field.bodyNode id refs scope input).mapTexts escape := by
  have hMedia : input.mediaType?.map escape = input.mediaType? := by
    rcases input with _ | _ | _ | _ | ⟨_ | _ | _⟩ | _ | _ <;> rfl
  have hCaption : Caption.node escape = Node.mapTexts escape ∘ Caption.node id :=
    funext Caption.node_escape
  unfold bodyNode
  simp only [Node.mapTexts_attr?, Node.mapTexts_attr, Node.mapTexts_parent, hMedia,
    bodyRef_escape refs hScope hName, List.map_append, List.map_map, Attributes.mapValues_empty,
    Function.comp_def, hCaption, choiceNode_escape]

end Field

/-! ## Outlines -/

/-- The fragment with every text of its elements changed. -/
def Fragment.mapTexts (f : String → String) (fragment : Fragment) : Fragment :=
  ⟨fragment.inst.map (Node.mapTexts f), fragment.body.map (Node.mapTexts f),
    fragment.binds.map (Node.mapTexts f), fragment.texts⟩

/-- What an outline contributes with texts escaped is what it contributes with texts as they
are, escaped once. -/
theorem Outline.fragment_escape (refs : BodyRefs) {o : Outline} (hWell : o.WellFormed)
    (hScope : scope.IsPlain) :
    o.fragment escape refs scope = (o.fragment id refs scope).mapTexts escape := by
  induction o generalizing scope with
  | done => rfl
  | question conditions field input rest ih =>
    obtain ⟨hName, -, -, hRest⟩ := hWell
    -- the conditions around a question change its clauses but none of its paths
    have hOwn : ({ scope with conditions } : Scope).IsPlain := ⟨hScope.path, hScope.below⟩
    rw [fragment, fragment, ih hRest hScope, Field.fragment, Field.bind_escape input hOwn hName,
      Field.bodyNode_escape refs input hOwn hName]
    rfl
  | group name label inside rest ihInside ihRest =>
    obtain ⟨hName, -, hInside, hRest⟩ := hWell
    rw [fragment, fragment, ihRest hRest hScope, ihInside hInside (hScope.group hName)]
    apply Fragment.ext_parts
    · simp [Fragment.mapTexts, Fragment.group]
    · simp [Fragment.mapTexts, Fragment.group, Caption.node_escape, Function.comp_def]
    · simp [Fragment.mapTexts, Fragment.group]
    · simp [Fragment.mapTexts, Fragment.group]

/-! ## Documents -/

/-- An entry is escaped once, in its key and in its text. -/
theorem Translations.entry_escape (language path : String) (text : LocalizedText) :
    entry escape language path text = (entry id language path text).mapTexts escape := by
  rw [entry, entry, Node.mapTexts_attr, Node.mapTexts_parent]
  rfl

/-- The block of a language whose code is plain is escaped once. The code itself is placed as it
is. -/
theorem Translations.block_escape (entries : List (String × LocalizedText)) {language : String}
    (h : IsPlain language) :
    block escape entries language = (block id entries language).mapTexts escape := by
  rw [block, block, translation, translation, Node.mapTexts_attr, Node.mapTexts_parent,
    escape_of_isPlain h, Translations.entries, Translations.entries, List.map_map]
  simp only [Function.comp_def, entry_escape, Attributes.mapValues_empty]

/-- The document of a form is its plain document with every text escaped once. -/
theorem documentWith_escape {form : Form} {options : Options} (hWell : form.outline.WellFormed)
    (hRoot : Text.isName options.instanceRoot = true)
    (hLanguages : ∀ language ∈ options.languages, IsPlain language) :
    form.documentWith escape options = (form.documentWith id options).mapTexts escape := by
  have hFragment := Outline.fragment_escape options.bodyRefs hWell (Scope.isPlain_top hRoot)
  rw [← fragment_outline, ← fragment_outline] at hFragment
  have hBlocks :
      options.languages.map (Translations.block escape (form.fragment id options).texts) =
        (options.languages.map (Translations.block id (form.fragment id options).texts)).map
          (Node.mapTexts escape) := by
    rw [List.map_map]
    exact List.map_congr_left fun language hMem =>
      Translations.block_escape _ (hLanguages language hMem)
  -- the namespaces are addresses without any reserved character
  have hNamespaces : (Attributes.ofList namespaces).mapValues escape =
      Attributes.ofList namespaces := by decide
  simp only [Form.documentWith, hFragment, Fragment.document, Fragment.model, Fragment.instanceRoot,
    Fragment.itext_translations, Fragment.mapTexts, Node.mapTexts_parent,
    Node.mapTexts_text, Node.mapTexts_attr?, List.map_cons, List.map_nil, hBlocks, hNamespaces,
    Attributes.mapValues_empty, Option.map_id, id]

/-! ## Reading texts back -/

/-- What is read, with its entities in one pass, where the texts of a form and of its options stand
in a document: the texts themselves, and clauses joined as they are. -/
structure ReadsBack (form : Form) (options : Options) (doc : Node) : Prop where
  title : ((doc.descend? ["h:head", "h:title"]).bind Node.value?).map Xml.unescape =
    some form.title
  formId : ((doc.descend? ["h:head", "model", "instance", options.instanceRoot]).bind
    (·.attrs.get? "id")).map Xml.unescape = options.formId
  binds : List.Forall₂
    (fun s bind =>
      (∀ destination ∈ s.field.destination,
        (bind.attrs.get? "nodeset").map Xml.unescape = some destination) ∧
      (bind.attrs.get? "relevant").map Xml.unescape =
        conjunction (s.conditions ++ s.field.relevance.toList) ∧
      (bind.attrs.get? "constraint").map Xml.unescape =
        conjunction ((s.input.bounds?.map Bounds.clause).toList ++ s.field.constraint.toList))
    form.sites (Document.binds doc)
  questions : List.Forall₂
    (fun s question =>
      (∀ destination ∈ s.field.destination,
        (question.attrs.get? "ref").map Xml.unescape = some destination) ∧
      (question.children.filter (·.name = "item")).map
          (fun item => (Document.valueOf? item).map Xml.unescape) =
        s.input.choices.map fun choice => some choice.value)
    form.sites (Document.questions doc)
  translations : (Document.translations doc).map
      (fun block => block.children.map fun entry => (Document.valueOf? entry).map Xml.unescape) =
    options.languages.map fun language =>
      form.shown.map fun w => some (w.said.get language)

/-- Reading entities after escaping does nothing to any text. -/
theorem unescape_comp_escape : Xml.unescape ∘ escape = id :=
  funext Xml.unescape_escape

/-- Reading the entities of joined clauses that were escaped gives the clauses joined. -/
theorem map_unescape_conjunction (clauses : List String) :
    (conjunction (clauses.map escape)).map Xml.unescape = conjunction clauses := by
  rw [conjunction_map_escape, Option.map_map, unescape_comp_escape, Option.map_id, id]

/-- The items of a question hold the values of its choices. -/
theorem Field.items_bodyNode (quote : String → String) (refs : BodyRefs) (field : Field)
    (input : Input) :
    ((field.bodyNode quote refs scope input).children.filter (·.name = "item")).map
        Document.valueOf? = input.choices.map fun choice => some (quote choice.value) := by
  have hCaptions : ((field.captions scope).map (Caption.node quote)).filter (·.name = "item") =
      [] := by
    rw [List.filter_eq_nil_iff]
    intro node hNode
    obtain ⟨c, hc, rfl⟩ := List.mem_map.1 hNode
    have hElement : ∀ element ∈ Caption.elements, element ≠ "item" := by decide
    rw [decide_eq_true_eq, Caption.node, Node.name_attr]
    exact hElement _ (element_of_mem_captions hc)
  rw [children_bodyNode, List.filter_append, hCaptions, List.nil_append, List.filter_eq_self.2]
  · rw [List.map_map]
    conv_rhs => rw [← List.zipIdx_map_fst 0 input.choices, List.map_map]
    rfl
  · intro node hNode
    obtain ⟨⟨choice, index⟩, -, rfl⟩ := List.mem_map.1 hNode
    rfl

/-- What the form and the options say is read from the document of the form. -/
theorem readsBack_documentWith (form : Form) (options : Options) :
    ReadsBack form options (form.documentWith escape options) where
  title := congrArg some (Xml.unescape_escape form.title)
  formId := by
    have hRoot : (form.documentWith escape options).descend?
        ["h:head", "model", "instance", options.instanceRoot] =
        some ((form.fragment escape options).instanceRoot escape options) := by
      have hChild : (Node.parent "instance" .empty
          [(form.fragment escape options).instanceRoot escape options]).child?
          options.instanceRoot =
          some ((form.fragment escape options).instanceRoot escape options) := by
        simp [Node.child?, Node.children, Fragment.name_instanceRoot]
      exact congrArg (· >>= some) hChild
    rw [hRoot, Option.bind_some, Fragment.instanceRoot, Node.get?_attr?, if_pos rfl]
    cases options.formId with
    | none => rfl
    | some formId => exact congrArg some (Xml.unescape_escape formId)
  binds := by
    rw [Document.binds_documentWith, List.forall₂_map_right_iff, List.forall₂_same]
    refine fun s _ => ⟨fun destination hDestination => ?_, ?_, ?_⟩
    · rw [Field.get?_nodeset_bind, Field.nodeset, hDestination]
      exact congrArg some (Xml.unescape_escape destination)
    · rw [Field.get?_relevant_bind, map_unescape_conjunction]
      rfl
    · rw [Field.get?_constraint_bind, map_unescape_conjunction]
      rfl
  questions := by
    rw [Document.questions_documentWith, List.forall₂_map_right_iff, List.forall₂_same]
    refine fun s _ => ⟨fun destination hDestination => ?_, ?_⟩
    · rw [Field.get?_ref_bodyNode]
      unfold Field.bodyRef
      rw [hDestination]
      exact congrArg some (Xml.unescape_escape destination)
    · have hItems := @Field.items_bodyNode (s.scope (.top options.instanceRoot)) escape
        options.bodyRefs s.field s.input
      have hRead := congrArg (List.map (Option.map Xml.unescape)) hItems
      rw [List.map_map, List.map_map] at hRead
      simpa only [Function.comp_def, Option.map_some, Xml.unescape_escape] using hRead
  translations := by
    rw [Document.translations_eq_map_shown, List.map_map]
    refine List.map_congr_left fun language _ => ?_
    have hBlock := Document.isTranslation_block escape language
      (form.shown.map fun w => (w.key options.instanceRoot, w.said))
    have hValues := congrArg (List.map (Option.map Xml.unescape)) hBlock.values
    simp only [List.map_map] at hValues
    refine hValues.trans (List.map_congr_left fun w _ => ?_)
    exact congrArg some (Xml.unescape_escape _)

/-- The compiler escapes every text exactly once: the document it answers is the plain document
with `escape` applied to every text and every value of an attribute, and reading the entities of
the answer in one pass gives the plain document back, in particular every text where it stands.
Bounds, which the plain document writes with bare signs, are among the texts that are escaped. -/
theorem compile_escapes_once {form : Form} {options : Options} {doc : Node}
    (h : form.compile options = .ok doc)
    (hLanguages : ∀ language ∈ options.languages, IsPlain language) :
    doc = (form.documentWith id options).mapTexts escape ∧
      doc.mapTexts Xml.unescape = form.documentWith id options ∧
      ReadsBack form options doc ∧
      ∀ b : Bounds, b.clause = s!". > {Decimal.plainText b.min} and . < {Decimal.plainText b.max}" ∧
        escape b.clause =
          s!". &gt; {Decimal.plainText b.min} and . &lt; {Decimal.plainText b.max}" := by
  obtain ⟨hOptions, hWell, rfl⟩ := compile_eq_ok_iff.1 h
  have hDoc := documentWith_escape hWell (isName_instanceRoot hOptions) hLanguages
  refine ⟨hDoc, ?_, readsBack_documentWith form options, fun b => ⟨rfl, b.escape_clause⟩⟩
  rw [hDoc]
  exact Node.mapTexts_mapTexts_of_inverse Xml.unescape_escape _

/-- A form and options whose texts all try to leave their place, in proper languages. -/
def hostileForm : Form where
  title := "</h:title><script>"
  controls := [
    .group "g" (some (.ofList [("en", "<b>&lt;"), ("fr", "\"")])) [
      .question { Field.named "q" with
        relevance := some "\" constraint=\"a", destination := some "/data/x\"/>" }
        (.selectOne [⟨.empty, "</value>&"⟩])]]

/-- Languages with harmless codes, and an identifier that tries to close the instance. -/
def hostileOptions : Options where
  languages := ["en", "fr"]
  instanceRoot := "data"
  formId := some "id\"></data>"
  bodyRefs := .relative

/-- Reserved characters in every text of the form are escaped once. -/
theorem hostileForm_escaped_once :
    hostileForm.compile hostileOptions = .ok (hostileForm.documentWith escape hostileOptions) ∧
      (∀ language ∈ hostileOptions.languages, IsPlain language) ∧
      hostileForm.documentWith escape hostileOptions =
        (hostileForm.documentWith id hostileOptions).mapTexts escape := by
  have hCompile : hostileForm.compile hostileOptions =
      .ok (hostileForm.documentWith escape hostileOptions) := rfl
  have hLanguages : ∀ language ∈ hostileOptions.languages, IsPlain language := by decide
  exact ⟨hCompile, hLanguages, (compile_escapes_once hCompile hLanguages).1⟩

end FormDesign
