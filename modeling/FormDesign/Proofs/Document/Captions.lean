import FormDesign.Proofs.Document.Parts
import FormDesign.Proofs.Outline.Wordings
import FormDesign.Proofs.Xml.Escape

/-!
# Captions and translations

The elements of the body that show texts and the entries of every translation come from two lists
that are put together separately. Both follow the wordings of the form that are shown, one by one
and in order, so every reference of the body finds its entry in every language, no entry is left
over, and none has the key of another.

## Main results

* `captions_documentWith`, `translations_eq_map_shown`: both lists, from the wordings that are
  shown;
* `compile_captions_translated`: the captions of a document and the entries of its translations
  have the same keys in the same order.
-/

namespace FormDesign

open Xml (Node)

/-! ## Questions and groups -/

section

variable (quote : String → String) {scope : Scope}

/-- The caption that shows a text. -/
def Wording.caption (scope : Scope) (w : Wording) : Caption :=
  ⟨w.role.element, s!"{(scope.inside w.above).path ++ w.name}:{w.role.word}", w.said⟩

/-- Labels and hints have a caption exactly when they are shown. -/
theorem captionOf_eq_map_shown {w : Wording} (hRole : w.role.isChoice = false)
    (hWord : w.role.word = w.role.element) :
    captionOf w.role.element ((scope.inside w.above).path ++ w.name) w.text =
      ([w].filter (·.IsShown)).map (Wording.caption scope) := by
  have hShown : w.IsShown ↔ (visible? w.text).isSome = true := by
    rw [← Wording.isShown_iff, hRole, Bool.false_or]
  unfold captionOf
  cases hVisible : visible? w.text with
  | none =>
    rw [hVisible] at hShown
    rw [List.filter_cons_of_neg (by simpa using hShown), List.filter_nil, List.map_nil]
  | some t =>
    have hText : w.text = some t := Option.eq_some_of_filter_eq_some hVisible
    rw [hVisible] at hShown
    rw [List.filter_cons_of_pos (by simpa using hShown), List.filter_nil, List.map_singleton,
      Wording.caption, Wording.said, hText, hWord]
    rfl

namespace Field

variable {field : Field} {input : Input}

theorem caption_choice (choice : Choice) (index : Nat) :
    Wording.caption scope ⟨[], field.name, .choice index, some choice.text⟩ =
      field.choiceCaption scope choice index := by
  have hPath : field.path scope ++ ":" ++ ("option" ++ Nat.repr index) =
      field.path scope ++ ":option" ++ Nat.repr index := by
    rw [← String.append_assoc]
    exact congrArg (· ++ Nat.repr index) String.append_assoc
  exact congrArg (Caption.mk "label" · choice.text) hPath

/-- The captions of a question: its label and its hint if they are shown, and its choices. -/
def shownCaptions (scope : Scope) (field : Field) (input : Input) : List Caption :=
  field.captions scope ++ input.choices.zipIdx.map
    fun (choice, index) => field.choiceCaption scope choice index

/-- The wordings of a field that are shown have the captions of the field. -/
theorem map_caption_wordings :
    ((field.wordings input).filter (·.IsShown)).map (Wording.caption scope) =
      field.shownCaptions scope input := by
  let label : Wording := ⟨[], field.name, .label, field.label⟩
  let hint : Wording := ⟨[], field.name, .hint, field.hint⟩
  let choices : List Wording := input.choices.zipIdx.map fun (choice, index) =>
    ⟨[], field.name, .choice index, some choice.text⟩
  have hCaptions : field.captions scope =
      ([label].filter (·.IsShown) ++ [hint].filter (·.IsShown)).map (Wording.caption scope) := by
    rw [List.map_append, ← captionOf_eq_map_shown (w := label) rfl rfl,
      ← captionOf_eq_map_shown (w := hint) rfl rfl]
    rfl
  have hChoices : choices.filter (·.IsShown) = choices := by
    refine List.filter_eq_self.2 fun w hw => ?_
    obtain ⟨⟨choice, index⟩, -, rfl⟩ := List.mem_map.1 hw
    exact decide_eq_true (.inl rfl)
  -- a choice is shown whatever its text says, so only the first two may be left out
  have hWordings : field.wordings input = [label] ++ [hint] ++ choices := rfl
  rw [hWordings, List.filter_append, List.filter_append, hChoices, List.map_append, ← hCaptions,
    List.map_map, shownCaptions]
  exact congrArg _ (List.map_congr_left fun choice _ => caption_choice choice.1 choice.2)

/-- The elements that show texts in the element of a question. -/
theorem captions_bodyNode (refs : BodyRefs) :
    (field.bodyNode quote refs scope input).named Caption.elements =
      (field.shownCaptions scope input).map (Caption.node quote) := by
  -- the element that asks the question shows no text itself, and so does an item of a choice
  have hName : (field.bodyNode quote refs scope input).name ∉ Caption.elements := by
    have hDisjoint : ∀ tag ∈ Input.bodyTags, tag ∉ Caption.elements := by decide
    rw [name_bodyNode]
    exact hDisjoint _ input.bodyTag_mem
  have hChoices : ∀ choices : List (Choice × Nat),
      (choices.map fun (choice, index) => field.choiceNode quote scope choice index).flatMap
          (Node.named Caption.elements) =
        (choices.map fun (choice, index) => field.choiceCaption scope choice index).map
          (Caption.node quote) := by
    intro choices
    induction choices with
    | nil => rfl
    | cons choice choices ih =>
      rw [List.map_cons, List.flatMap_cons, ih]
      rfl
  rw [Node.named_of_not_mem hName, children_bodyNode, List.flatMap_append, hChoices,
    Caption.named_map_node quote fun c hc => element_of_mem_captions hc, shownCaptions,
    List.map_append]

/-- The texts of a field are those of its captions and choices. -/
theorem texts_eq_map_shown :
    field.texts scope input = (field.shownCaptions scope input).map Caption.entry := by
  rw [shownCaptions, List.map_append, List.map_map]
  rfl

end Field

/-- The label of a group is the only caption that a group brings. -/
theorem captionOf_group (name : String) (label : Option LocalizedText) :
    captionOf "label" (scope.path ++ name) label =
      ([(⟨[], name, .label, label⟩ : Wording)].filter (·.IsShown)).map (Wording.caption scope) :=
  captionOf_eq_map_shown (w := ⟨[], name, .label, label⟩) rfl rfl

end

namespace Outline

variable (quote : String → String) (refs : BodyRefs)

/-- The captions of an outline: those of its wordings that are shown, in order. -/
def captions (scope : Scope) (o : Outline) : List Caption :=
  (o.wordings.filter (·.IsShown)).map (Wording.caption scope)

/-- A question has captions before those of what follows it. -/
theorem captions_question (scope : Scope) (conditions : List String) (field : Field)
    (input : Input) (rest : Outline) :
    (question conditions field input rest).captions scope =
      field.shownCaptions { scope with conditions } input ++ rest.captions scope := by
  rw [captions, wordings, List.filter_append, List.map_append, Field.map_caption_wordings]
  rfl

/-- A group has a caption before those inside it, and these before those of what follows it. -/
theorem captions_group (scope : Scope) (name : String) (label : Option LocalizedText)
    (inside rest : Outline) :
    (group name label inside rest).captions scope =
      captionOf "label" (scope.path ++ name) label ++ inside.captions (scope.group name) ++
        rest.captions scope := by
  have hWordings : (group name label inside rest).wordings =
      [⟨[], name, .label, label⟩] ++ inside.wordings.map (Wording.inGroup name) ++ rest.wordings :=
    rfl
  rw [captions, hWordings, List.filter_append, List.filter_append, List.map_append,
    List.map_append, ← captionOf_group, List.filter_map, List.map_map]
  rfl

/-- The elements of the body that show texts are the captions of the outline, in order. -/
theorem captions_fragment (scope : Scope) (o : Outline) :
    (o.fragment quote refs scope).body.flatMap (Node.named Caption.elements) =
      (o.captions scope).map (Caption.node quote) := by
  induction o generalizing scope with
  | done => rfl
  | question conditions field input rest ih =>
    rw [fragment, Fragment.body_append, List.flatMap_append, ih, Field.fragment,
      List.flatMap_singleton, Field.captions_bodyNode, captions_question, List.map_append]
  | group name label inside rest ihInside ihRest =>
    have hGroup : "group" ∉ Caption.elements := by decide
    have hLabel : ∀ c ∈ captionOf "label" (scope.path ++ name) label,
        c.element ∈ Caption.elements :=
      fun c hc => element_of_mem_captionOf hc ▸ List.mem_cons_self ..
    rw [fragment, Fragment.body_append, List.flatMap_append, ihRest, Fragment.group,
      List.flatMap_singleton, Node.named_of_not_mem hGroup, Node.children, List.flatMap_append,
      Caption.named_map_node quote hLabel, ihInside, captions_group, List.map_append,
      List.map_append]

/-- The texts that are registered are those of the captions of the outline, in order. -/
theorem texts_fragment (scope : Scope) (o : Outline) :
    (o.fragment quote refs scope).texts = (o.captions scope).map Caption.entry := by
  induction o generalizing scope with
  | done => rfl
  | question conditions field input rest ih =>
    rw [fragment, Fragment.texts_append, ih, Field.fragment, Field.texts_eq_map_shown,
      captions_question, List.map_append]
  | group name label inside rest ihInside ihRest =>
    rw [fragment, Fragment.texts_append, ihRest, Fragment.group, ihInside, captions_group,
      List.map_append, List.map_append]

end Outline

/-! ## Documents -/

/-- What a wording registers in a document: its key and what it says. -/
theorem Wording.caption_top (root : String) (w : Wording) :
    w.caption (.top root) = ⟨w.role.element, w.key root, w.said⟩ := by
  have hPath : ((Scope.top root).inside w.above).path ++ w.name = pathOf (root :: w.names) :=
    Scope.path_inside_top root w.above w.name
  rw [caption, key, hPath]
  rfl

namespace Document

variable (quote : String → String) (form : Form) (options : Options)

/-- The captions of a document are those of the wordings that are shown, in order. -/
theorem captions_documentWith : captions (form.documentWith quote options) =
    form.shown.map fun w =>
      Caption.node quote ⟨w.role.element, w.key options.instanceRoot, w.said⟩ := by
  have hBody : (form.documentWith quote options).childrenAt ["h:body"] =
      (form.fragment quote options).body := rfl
  rw [captions, inBody, hBody, fragment_outline, Outline.captions_fragment, Outline.captions,
    List.map_map]
  simp only [Function.comp_def, Wording.caption_top]
  rfl

/-- Every translation is made of the wordings that are shown, in order. -/
theorem translations_eq_map_shown : translations (form.documentWith quote options) =
    options.languages.map (Translations.block quote
      (form.shown.map fun w => (w.key options.instanceRoot, w.said))) := by
  rw [translations_documentWith, fragment_outline, Outline.texts_fragment, Outline.captions,
    List.map_map]
  simp only [Function.comp_def, Wording.caption_top]
  rfl

/-- The block of a translation has a language, and one entry for each key, with these values. -/
structure IsTranslation (language : String) (keys values : List String) (block : Node) : Prop where
  name : block.name = "translation"
  lang : block.attrs.get? "lang" = some language
  entries : block.children.map Node.name = keys.map fun _ => "text"
  ids : block.children.map (·.attrs.get? "id") = keys.map some
  values : block.children.map valueOf? = values.map some

/-- The block of a language translates the texts that it is made of. -/
theorem isTranslation_block (language : String) (keys : List (String × LocalizedText)) :
    IsTranslation language (keys.map fun e => quote e.1)
      (keys.map fun e => quote (e.2.get language)) (Translations.block quote keys language) := by
  have hChildren : (Translations.block quote keys language).children =
      keys.map fun e => Translations.entry quote language e.1 e.2 := rfl
  refine ⟨rfl, rfl, ?_, ?_, ?_⟩
  all_goals
    rw [hChildren, List.map_map, List.map_map]
    rfl

end Document

/-- The keys that the captions of a document refer to are those of the entries of each of its
translations, in the same order and each once. There is a translation for each language, in order.
The wordings of the form are the texts that may be given in it, in order. Those that are shown are
what the captions show, one by one, and what such a text says in a language stands in the entry of
that language, escaped; where a language is missing, nothing. -/
theorem compile_captions_translated {form : Form} {options : Options} {doc : Node}
    (h : form.compile options = .ok doc) :
    ∃ keys : List String,
      form.wordings.map Wording.own = form.texts ∧
      keys = form.shown.map (fun w => Xml.escape (w.key options.instanceRoot)) ∧ keys.Nodup ∧
      (Document.captions doc).map Node.name = form.shown.map (·.role.element) ∧
      (Document.captions doc).map (·.attrs.get? "ref") =
        keys.map (fun key => some s!"jr:itext('{key}')") ∧
      List.Forall₂
        (fun language block =>
          Document.IsTranslation language keys
            (form.shown.map fun w => Xml.escape (w.said.get language)) block)
        options.languages (Document.translations doc) ∧
      ∀ w ∈ form.shown, ∀ language ∉ w.said.languages,
        Xml.escape (w.said.get language) = "" := by
  obtain ⟨hOptions, hWell, rfl⟩ := compile_eq_ok_iff.1 h
  refine ⟨_, map_own_wordings form, rfl, ?_, ?_, ?_, ?_, fun w _ language hMissing => ?_⟩
  · -- the keys of all wordings differ, those that are not shown included
    have hKeys := Outline.nodup_keys_wordings (isName_instanceRoot hOptions) hWell
    have hShown : (form.shown.map (Wording.key options.instanceRoot)).Nodup :=
      hKeys.sublist (List.filter_sublist.map _)
    have hEscaped := hShown.map fun a b => Xml.escape_injective
    rwa [List.map_map] at hEscaped
  · rw [Document.captions_documentWith, List.map_map]
    refine List.map_congr_left fun w _ => ?_
    rw [Function.comp_apply, Caption.node, Node.name_attr]
    rfl
  · rw [Document.captions_documentWith, List.map_map, List.map_map]
    refine List.map_congr_left fun w _ => ?_
    rw [Function.comp_apply, Caption.node, Node.get?_attr, if_pos rfl]
    rfl
  · rw [Document.translations_eq_map_shown, List.forall₂_map_right_iff, List.forall₂_same]
    intro language _
    have hBlock := Document.isTranslation_block Xml.escape language
      (form.shown.map fun w => (w.key options.instanceRoot, w.said))
    rwa [List.map_map, List.map_map] at hBlock
  · rw [LocalizedText.get_of_not_mem hMissing]
    rfl

/-- A group with a label in a language that is not active, a question with a blank label and a
hint, and choices of which one says nothing. -/
def bilingualForm : Form where
  title := "Bilingual"
  controls := [
    .group "g" (some (.ofList [("fr", "Groupe")])) [
      .question { Field.named "q" with
        label := some (.ofList [("en", "")])
        hint := some (.ofList [("en", "Choose <one>")]) }
        (.selectOne [⟨.empty, "a"⟩, ⟨.ofList [("en", "B")], "b"⟩])]]

theorem bilingualForm_captions_translated :
    bilingualForm.compile Options.default =
        .ok (bilingualForm.documentWith Xml.escape .default) ∧
      bilingualForm.shown.map (Wording.key "data") =
        ["/data/g:label", "/data/g/q:hint", "/data/g/q:option0", "/data/g/q:option1"] ∧
      ∃ keys : List String, keys.Nodup ∧
        (Document.captions (bilingualForm.documentWith Xml.escape .default)).map
            (·.attrs.get? "ref") =
          keys.map (fun key => some s!"jr:itext('{key}')") ∧
        List.Forall₂
          (fun language block =>
            Document.IsTranslation language keys
              (bilingualForm.shown.map fun w => Xml.escape (w.said.get language)) block)
          Options.default.languages
          (Document.translations (bilingualForm.documentWith Xml.escape .default)) := by
  have hCompile : bilingualForm.compile Options.default =
      .ok (bilingualForm.documentWith Xml.escape .default) := rfl
  obtain ⟨keys, -, -, hNodup, -, hRefs, hBlocks, -⟩ := compile_captions_translated hCompile
  exact ⟨hCompile, by decide, keys, hNodup, hRefs, hBlocks⟩

end FormDesign
