import FormDesign.Proofs.Document.Escaping
import FormDesign.Proofs.Xml.Tags

/-!
# Markup in documents

Every name in a compiled document is a word of the format or a checked name, and every text and
every value is escaped, with one exception: the code of a language is placed as it is. So the
whole document can stand in markup exactly when every language code can stand in a value, and
then nothing that the form or the options say is taken for markup in the text of the document.

## Main results

* `documentWith_isMarkup_iff`: when every element of a document can stand in markup;
* `compile_isMarkup_iff`: the same for what the compiler answers, and what is read from its text;
* `language_brings_attribute`: a language code that ends its own value.
-/

namespace FormDesign

open Xml (Node Attributes IsMarkupName IsValue escape isValue_escape isText_escape)

namespace Xml

/-! ## Names of elements and of attributes -/

/-- An element whose name and whose names of attributes can stand in markup. -/
structure Node.HasMarkupNames (node : Node) : Prop where
  name : IsMarkupName node.name
  keys : ∀ entry ∈ node.attrs.entries, IsMarkupName entry.1

/-- A tree in which all names can stand in markup. -/
def Node.IsNamed (node : Node) : Prop :=
  ∀ n ∈ node.elements, n.HasMarkupNames

namespace Node

theorem isNamed_empty {name : String} (h : IsMarkupName name) : (empty name .empty).IsNamed :=
  forall_elements_iff.2
    ⟨⟨h, fun _ hEntry => absurd hEntry List.not_mem_nil⟩,
      fun _ hChild => absurd hChild List.not_mem_nil⟩

theorem isNamed_text {name : String} (h : IsMarkupName name) (value : String) :
    (text name .empty value).IsNamed :=
  forall_elements_iff.2
    ⟨⟨h, fun _ hEntry => absurd hEntry List.not_mem_nil⟩,
      fun _ hChild => absurd hChild List.not_mem_nil⟩

theorem isNamed_parent {name : String} {children : List Node} (h : IsMarkupName name)
    (hChildren : ∀ child ∈ children, child.IsNamed) : (parent name .empty children).IsNamed :=
  forall_elements_iff.2 ⟨⟨h, fun _ hEntry => absurd hEntry List.not_mem_nil⟩, hChildren⟩

/-- A further attribute changes nothing but the root of a tree. -/
theorem IsNamed.attr {node : Node} {key : String} (h : node.IsNamed) (hKey : IsMarkupName key)
    (value : String) : (node.attr key value).IsNamed := by
  obtain ⟨hRoot, hInside⟩ := forall_elements_iff.1 h
  refine forall_elements_iff.2 ⟨⟨?_, ?_⟩, ?_⟩
  · rw [name_attr]
    exact hRoot.name
  · intro entry hEntry
    rw [attrs_attr] at hEntry
    rcases Attributes.mem_entries_set hEntry with rfl | hEntry
    · exact hKey
    · exact hRoot.keys entry hEntry
  · rw [children_attr]
    exact hInside

/-- An attribute that may be set under a name of markup keeps the names right. -/
theorem IsNamed.attr? {node : Node} {key : String} (h : node.IsNamed) (hKey : IsMarkupName key)
    (value : Option String) : (node.attr? key value).IsNamed := by
  cases value with
  | none => exact h
  | some value => exact h.attr hKey value

/-- With the right names, an element whose texts are escaped is markup. -/
theorem HasMarkupNames.isMarkup_escape {node : Node} (h : node.HasMarkupNames) :
    (node.mapTexts escape).IsMarkup where
  name := by
    have hName : (node.mapTexts escape).name = node.name := by cases node <;> rfl
    rw [hName]
    exact h.name
  attrs := by
    have hAttrs : (node.mapTexts escape).attrs = node.attrs.mapValues escape := by
      cases node <;> rfl
    intro entry hEntry
    rw [hAttrs] at hEntry
    obtain ⟨raw, hRaw, rfl⟩ := List.mem_map.1 hEntry
    exact ⟨h.keys raw hRaw, isValue_escape raw.2⟩
  text := by
    intro value hValue
    cases node with
    | text name attrs raw =>
      rw [mapTexts_text] at hValue
      cases hValue
      exact isText_escape raw
    | empty | parent => cases hValue

/-- Once its texts are escaped, a tree with proper names can stand in markup. -/
theorem IsNamed.isMarkup_escape {node : Node} (h : node.IsNamed) :
    ∀ n ∈ (node.mapTexts escape).elements, n.IsMarkup := by
  rw [elements_mapTexts]
  intro n hn
  obtain ⟨raw, hRaw, rfl⟩ := List.mem_map.1 hn
  exact (h raw hRaw).isMarkup_escape

/-- With the right names, trees whose texts are escaped are markup throughout. -/
theorem isMarkup_map_escape {nodes : List Node} (h : ∀ node ∈ nodes, node.IsNamed) :
    ∀ node ∈ nodes.map (mapTexts escape), ∀ n ∈ node.elements, n.IsMarkup :=
  List.forall_mem_map.2 fun node hNode => (h node hNode).isMarkup_escape

end Node

end Xml

/-! ## Names in fragments -/

/-- A name that passes the check is a name of markup. -/
theorem isMarkupName_of_isName {name : String} (h : Text.isName name = true) :
    IsMarkupName name := by
  refine ⟨fun hEmpty => Text.toList_ne_nil_of_isName h (by rw [hEmpty]; rfl), fun c hc => ?_⟩
  refine ⟨Text.isSpace_of_mem_name h hc, fun hOther => ?_⟩
  -- none of the characters that end a name of markup may stand in a name
  have hRest : (['<', '>', '&', '"', '/', '='].all fun d => !Text.isNameRest d) = true := by decide
  exact Text.not_mem_of_isName h (by simpa using List.all_eq_true.1 hRest c hOther) hc

open Xml.Node (isNamed_empty isNamed_text isNamed_parent)

/-- The element of a caption has the right names, if it has one itself. -/
theorem Caption.isNamed_node (quote : String → String) {c : Caption}
    (h : IsMarkupName c.element) : (c.node quote).IsNamed :=
  (isNamed_empty h).attr (by decide) _

namespace Field

variable (quote : String → String) (scope : Scope) (field : Field) (input : Input)

/-- The names in a bind are fixed, and are names of markup. -/
theorem isNamed_bind : (field.bind quote scope input).IsNamed := by
  have hBind : (Node.empty "bind" .empty).IsNamed := isNamed_empty (by decide)
  exact (((((hBind.attr (by decide) _).attr? (by decide) _).attr? (by decide) _).attr?
    (by decide) _).attr? (by decide) _).attr? (by decide) _

theorem isNamed_choiceNode (choice : Choice) (index : Nat) :
    (field.choiceNode quote scope choice index).IsNamed := by
  have hLabel : IsMarkupName (field.choiceCaption scope choice index).element :=
    show IsMarkupName "label" by decide
  refine isNamed_parent (by decide) ?_
  simp only [List.forall_mem_cons, List.not_mem_nil, false_imp_iff, implies_true, and_true]
  exact ⟨Caption.isNamed_node quote hLabel, isNamed_text (by decide) _⟩

/-- The names in the element of a question are fixed, and are names of markup. -/
theorem isNamed_bodyNode (refs : BodyRefs) : (field.bodyNode quote refs scope input).IsNamed := by
  have hTag : IsMarkupName input.bodyTag :=
    (by decide : ∀ tag ∈ Input.bodyTags, IsMarkupName tag) _ input.bodyTag_mem
  refine ((isNamed_parent hTag ?_).attr (by decide) _).attr? (by decide) _
  intro child hChild
  rcases List.mem_append.1 hChild with hCaption | hChoice
  · obtain ⟨c, hc, rfl⟩ := List.mem_map.1 hCaption
    have hElements : ∀ element ∈ Caption.elements, IsMarkupName element := by decide
    exact Caption.isNamed_node quote (hElements _ (element_of_mem_captions hc))
  · obtain ⟨⟨choice, index⟩, -, rfl⟩ := List.mem_map.1 hChoice
    exact isNamed_choiceNode quote scope field choice index

end Field

/-- A fragment whose elements have proper names. -/
structure Fragment.IsNamed (fragment : Fragment) : Prop where
  inst : ∀ node ∈ fragment.inst, node.IsNamed
  body : ∀ node ∈ fragment.body, node.IsNamed
  binds : ∀ node ∈ fragment.binds, node.IsNamed

/-- Names stay right when contributions are put together. -/
theorem Fragment.IsNamed.append {a b : Fragment} (ha : a.IsNamed) (hb : b.IsNamed) :
    (a ++ b).IsNamed where
  inst := List.forall_mem_append.2 ⟨ha.inst, hb.inst⟩
  body := List.forall_mem_append.2 ⟨ha.body, hb.body⟩
  binds := List.forall_mem_append.2 ⟨ha.binds, hb.binds⟩

/-- A group brings its own name and otherwise words of the format. -/
theorem Fragment.IsNamed.group (quote : String → String) (scope : Scope) {name : String}
    (label : Option LocalizedText) {inside : Fragment} (hName : Text.isName name = true)
    (h : inside.IsNamed) : (Fragment.group quote scope name label inside).IsNamed where
  inst := List.forall_mem_singleton.2 (isNamed_parent (isMarkupName_of_isName hName) h.inst)
  body := by
    refine List.forall_mem_singleton.2 (isNamed_parent (by decide) ?_)
    refine List.forall_mem_append.2 ⟨?_, h.body⟩
    intro child hChild
    obtain ⟨c, hc, rfl⟩ := List.mem_map.1 hChild
    exact Caption.isNamed_node quote (by rw [element_of_mem_captionOf hc]; decide)
  binds := h.binds

/-- The names that a well-formed outline brings into a document can stand in markup. -/
theorem Outline.isNamed_fragment (quote : String → String) (refs : BodyRefs) (scope : Scope)
    {o : Outline} (hWell : o.WellFormed) : (o.fragment quote refs scope).IsNamed := by
  induction o generalizing scope with
  | done => exact ⟨by simp [fragment], by simp [fragment], by simp [fragment]⟩
  | question conditions field input rest ih =>
    obtain ⟨hName, -, -, hRest⟩ := hWell
    refine Fragment.IsNamed.append ⟨?_, ?_, ?_⟩ (ih scope hRest)
    · exact List.forall_mem_singleton.2 (isNamed_empty (isMarkupName_of_isName hName))
    · exact List.forall_mem_singleton.2 (Field.isNamed_bodyNode quote _ field input refs)
    · exact List.forall_mem_singleton.2 (Field.isNamed_bind quote _ field input)
  | group name label inside rest ihInside ihRest =>
    obtain ⟨hName, -, hInside, hRest⟩ := hWell
    exact ((ihInside _ hInside).group quote scope label hName).append (ihRest scope hRest)

/-! ## Documents -/

theorem Translations.isNamed_entry (quote : String → String) (language path : String)
    (text : LocalizedText) : (entry quote language path text).IsNamed := by
  refine (isNamed_parent (by decide) (List.forall_mem_singleton.2 ?_)).attr (by decide) _
  exact isNamed_text (by decide) _

/-- The code of a language is all of a translation that is not escaped. -/
theorem Translations.block_isMarkup_iff (entries : List (String × LocalizedText))
    (language : String) :
    (∀ n ∈ (block escape entries language).elements, n.IsMarkup) ↔ IsValue language := by
  have hAttrs : (block escape entries language).attrs.entries = [("lang", language)] := rfl
  constructor
  · intro h
    have hRoot := (Node.forall_elements_iff.1 h).1
    exact (hRoot.attrs ("lang", language) (by rw [hAttrs]; exact List.mem_singleton.2 rfl)).2
  · intro hLanguage
    refine Node.isMarkup_parent (by decide) ?_ ?_
    · exact List.forall_mem_singleton.2 ⟨show IsMarkupName "lang" by decide, hLanguage⟩
    · intro child hChild
      obtain ⟨entry, -, rfl⟩ := List.mem_map.1 hChild
      rw [entry_escape]
      exact (isNamed_entry id language entry.1 entry.2).isMarkup_escape

/-- The elements of a translation are elements of the document. -/
theorem mem_elements_document {quote : String → String} {f : Fragment} {title : String}
    {options : Options} {language : String} (hMem : language ∈ options.languages) {n : Node}
    (hn : n ∈ (Translations.block quote f.texts language).elements) :
    n ∈ (f.document quote title options).elements := by
  have hBlock : Translations.block quote f.texts language ∈
      (f.translations quote options).itext.children := by
    rw [Fragment.itext_translations]
    exact List.mem_map_of_mem hMem
  have hItext : (f.translations quote options).itext ∈ (f.model quote options).children :=
    List.mem_cons_of_mem _ (List.mem_cons_self ..)
  have hModel : f.model quote options ∈ (Node.parent "h:head" .empty
      [.text "h:title" .empty (quote title), f.model quote options]).children :=
    List.mem_cons_of_mem _ (List.mem_cons_self ..)
  refine Node.mem_elements_of_mem_children (List.mem_cons_self ..) ?_
  refine Node.mem_elements_of_mem_children hModel ?_
  exact Node.mem_elements_of_mem_children hItext (Node.mem_elements_of_mem_children hBlock hn)

theorem Attributes.isMarkup_empty : Attributes.empty.IsMarkup :=
  fun _ hEntry => absurd hEntry List.not_mem_nil

namespace Fragment

variable {raw : Fragment} {options : Options}

/-- With proper names and proper language codes, all of the model can stand in markup. -/
theorem isMarkup_model (hNamed : raw.IsNamed) (hRoot : Text.isName options.instanceRoot = true)
    (hLanguages : ∀ language ∈ options.languages, IsValue language) :
    ∀ n ∈ ((raw.mapTexts escape).model escape options).elements, n.IsMarkup := by
  refine Node.isMarkup_parent (by decide) Attributes.isMarkup_empty ?_
  refine List.forall_mem_cons.2 ⟨?_, List.forall_mem_cons.2 ⟨?_, ?_⟩⟩
  · -- The root of the instance has the one name that the options give.
    have hRootNode := (isNamed_parent (isMarkupName_of_isName hRoot) hNamed.inst).attr?
      (by decide : IsMarkupName "id") options.formId
    have hEscaped := hRootNode.isMarkup_escape
    rw [Node.mapTexts_attr?, Node.mapTexts_parent] at hEscaped
    refine Node.isMarkup_parent (by decide) Attributes.isMarkup_empty ?_
    exact List.forall_mem_singleton.2 hEscaped
  · rw [itext_translations]
    refine Node.isMarkup_parent (by decide) Attributes.isMarkup_empty ?_
    intro block hBlock
    obtain ⟨language, hMem, rfl⟩ := List.mem_map.1 hBlock
    exact (Translations.block_isMarkup_iff _ language).2 (hLanguages language hMem)
  · exact Node.isMarkup_map_escape hNamed.binds

/-- With proper names and proper language codes, all of the document can stand in markup. -/
theorem isMarkup_document (hNamed : raw.IsNamed) (hRoot : Text.isName options.instanceRoot = true)
    (hLanguages : ∀ language ∈ options.languages, IsValue language) (title : String) :
    ∀ n ∈ ((raw.mapTexts escape).document escape title options).elements, n.IsMarkup := by
  have hTitle : ∀ n ∈ (Node.text "h:title" .empty (escape title)).elements, n.IsMarkup :=
    (isNamed_text (by decide) title).isMarkup_escape
  have hModel := isMarkup_model hNamed hRoot hLanguages
  have hBody : ∀ node ∈ (raw.mapTexts escape).body, ∀ n ∈ node.elements, n.IsMarkup :=
    Node.isMarkup_map_escape hNamed.body
  refine Node.isMarkup_parent (by decide) (by decide) ?_
  refine List.forall_mem_cons.2 ⟨?_, List.forall_mem_singleton.2 ?_⟩
  · refine Node.isMarkup_parent (by decide) Attributes.isMarkup_empty ?_
    exact List.forall_mem_cons.2 ⟨hTitle, List.forall_mem_singleton.2 hModel⟩
  · exact Node.isMarkup_parent (by decide) Attributes.isMarkup_empty hBody

end Fragment

/-- A document can stand in markup exactly when every language code can stand in a value. -/
theorem documentWith_isMarkup_iff {form : Form} {options : Options}
    (hWell : form.outline.WellFormed) (hRoot : Text.isName options.instanceRoot = true) :
    (∀ n ∈ (form.documentWith escape options).elements, n.IsMarkup) ↔
      ∀ language ∈ options.languages, IsValue language := by
  have hEscape := Outline.fragment_escape options.bodyRefs hWell (Scope.isPlain_top hRoot)
  have hNamed := Outline.isNamed_fragment id options.bodyRefs (.top options.instanceRoot) hWell
  rw [← fragment_outline, ← fragment_outline] at hEscape
  rw [← fragment_outline] at hNamed
  constructor
  · intro h language hMem
    rw [← Translations.block_isMarkup_iff (form.fragment escape options).texts]
    exact fun n hn => h n (mem_elements_document hMem hn)
  · intro hLanguages
    rw [Form.documentWith, hEscape]
    exact Fragment.isMarkup_document hNamed hRoot hLanguages form.title

/-- What the compiler answers can stand in markup exactly when every language code can stand in a
value. Then whoever reads its text finds the tags of the document and no others: no text of the
form or of the options opens or closes a tag, ends a value or brings an attribute. -/
theorem compile_isMarkup_iff {form : Form} {options : Options} {doc : Node}
    (h : form.compile options = .ok doc) :
    ((∀ n ∈ doc.elements, n.IsMarkup) ↔ ∀ language ∈ options.languages, IsValue language) ∧
      ((∀ language ∈ options.languages, IsValue language) →
        Xml.tagsOf? doc.render = some doc.tags) := by
  obtain ⟨hOptions, hWell, rfl⟩ := compile_eq_ok_iff.1 h
  have hIff := documentWith_isMarkup_iff hWell (isName_instanceRoot hOptions)
  exact ⟨hIff, fun hLanguages => Node.tagsOf?_render (hIff.2 hLanguages)⟩

theorem compile_isMarkup_hostileForm :
    hostileForm.compile hostileOptions = .ok (hostileForm.documentWith escape hostileOptions) ∧
      (∀ language ∈ hostileOptions.languages, IsValue language) ∧
      (∀ n ∈ (hostileForm.documentWith escape hostileOptions).elements, n.IsMarkup) ∧
      Xml.tagsOf? (hostileForm.documentWith escape hostileOptions).render =
        some (hostileForm.documentWith escape hostileOptions).tags := by
  have hCompile : hostileForm.compile hostileOptions =
      .ok (hostileForm.documentWith escape hostileOptions) := rfl
  have hLanguages : ∀ language ∈ hostileOptions.languages, IsValue language := by decide
  have hMain := compile_isMarkup_iff hCompile
  exact ⟨hCompile, hLanguages, hMain.1.2 hLanguages, hMain.2 hLanguages⟩

/-- A language code is placed as it is, so it can end its own value and bring an attribute: the
translation with the code `en" id="x` is read as an element with two attributes. -/
theorem language_brings_attribute :
    let language := "en\" id=\"x"
    let options : Options := { Options.default with languages := [language] }
    let doc := (Form.mk "T" []).documentWith escape options
    let translation := Translations.block escape [] language
    (Form.mk "T" []).compile options = .ok doc ∧ ¬ (∀ n ∈ doc.elements, n.IsMarkup) ∧
      translation ∈ doc.elements ∧
      translation.tags = [.opening "translation" [("lang", language)], .closing "translation"] ∧
      Xml.tagsOf? translation.render =
        some [.opening "translation" [("lang", "en"), ("id", "x")], .closing "translation"] := by
  have hRoot : Text.isName "data" = true := by decide
  refine ⟨rfl, fun hAll => ?_, ?_, by decide, by decide +kernel⟩
  · have hWell : (Form.mk "T" []).outline.WellFormed := trivial
    exact absurd ((documentWith_isMarkup_iff hWell hRoot).1 hAll) (by decide)
  · refine mem_elements_document (List.mem_singleton.2 rfl) ?_
    rw [Node.elements_eq_cons]
    exact List.mem_cons_self ..

end FormDesign
