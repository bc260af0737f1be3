import FormDesign.Proofs.Document.Parts

/-!
# Languages

Every active language has a block of its own in the translations, and nothing else in a document
knows of the languages: what is shown is decided by the texts of the form in all their languages,
active or not, and every block has an entry for all that is shown. So languages may be added, taken
away and put in another order without a change to anything but their own blocks.

## Main definitions

* `Document.withoutTranslations`: a document without the blocks of its languages;
* `Document.translation?`: the block of a language.

## Main results

* `Options.check_eq_ok_iff`: which options pass their check;
* `withoutTranslations_documentWith`: outside the blocks a document does not depend on languages;
* `translation?_documentWith`: the block of a language does not depend on the others;
* `compile_languages_independent`: all of this for the result of compiling a form.
-/

namespace FormDesign

open Xml (Node)

/-! ## Options -/

namespace Options

/-- Nothing is repeated in a list without duplicates of what has not been seen. -/
theorem firstRepeat?_eq_none_iff {seen texts : List String} :
    firstRepeat? seen texts = none ↔ texts.Nodup ∧ ∀ s ∈ texts, s ∉ seen := by
  induction texts generalizing seen with
  | nil => simp [firstRepeat?]
  | cons s rest ih =>
    rw [firstRepeat?, List.nodup_cons, List.forall_mem_cons]
    by_cases hSeen : s ∈ seen
    · simp [hSeen]
    · simp only [if_neg hSeen, ih, List.mem_cons, not_or]
      constructor
      · rintro ⟨hRest, hNew⟩
        exact ⟨⟨fun hMem => (hNew s hMem).1 rfl, hRest⟩, hSeen, fun t ht => (hNew t ht).2⟩
      · rintro ⟨⟨hFirst, hRest⟩, -, hNew⟩
        refine ⟨hRest, fun t ht => ⟨?_, hNew t ht⟩⟩
        rintro rfl
        exact hFirst ht

/-- Options are in order when there are languages, none of them twice, and the root is a name. -/
theorem check_eq_ok_iff {options : Options} : options.check = .ok () ↔
    options.languages ≠ [] ∧ options.languages.Nodup ∧
      Text.isName options.instanceRoot = true := by
  have hRepeat : firstRepeat? [] options.languages = none ↔
      options.languages.Nodup ∧ ∀ s ∈ options.languages, s ∉ [] := firstRepeat?_eq_none_iff
  rw [check]
  by_cases hNone : options.languages = []
  · simp [hNone]
  · cases hFirst : firstRepeat? [] options.languages with
    | some language =>
      have hTwice : ¬ options.languages.Nodup := fun h => by
        rw [hRepeat.2 ⟨h, fun _ _ => List.not_mem_nil⟩] at hFirst
        cases hFirst
      simp [hNone, hTwice]
    | none =>
      have hOnce : options.languages.Nodup := (hRepeat.1 hFirst).1
      by_cases hName : Text.isName options.instanceRoot <;> simp [hNone, hOnce, hName]

end Options

/-! ## Documents without translations -/

/-- The element with nothing inside. -/
def Xml.Node.withoutChildren : Node → Node
  | .parent name attrs _ => .parent name attrs []
  | node => node

namespace Document

/-- The document without the blocks of its languages. -/
def withoutTranslations (doc : Node) : Node :=
  doc.onChildren "h:head" (Node.onChildren "model" (Node.onChildren "itext" Node.withoutChildren))

/-- The block of a language, which is the first one that says so. -/
def translation? (doc : Node) (language : String) : Option Node :=
  (translations doc).find? fun block => block.attrs.get? "lang" = some language

variable (quote : String → String) (form : Form) (options : Options)

/-- Outside the blocks, a document does not depend on the active languages. -/
theorem withoutTranslations_documentWith (languages others : List String) :
    withoutTranslations (form.documentWith quote { options with languages }) =
      withoutTranslations (form.documentWith quote { options with languages := others }) := rfl

theorem get?_lang_block (entries : List (String × LocalizedText)) (language : String) :
    (Translations.block quote entries language).attrs.get? "lang" = some language := by
  rw [Translations.block, Translations.translation, Node.get?_attr, if_pos rfl]

/-- An active language has one block, which does not depend on the other languages. -/
theorem translation?_documentWith (language : String) :
    translation? (form.documentWith quote options) language =
      if language ∈ options.languages then
        some (Translations.block quote (form.fragment quote options).texts language)
      else none := by
  let block := Translations.block quote (form.fragment quote options).texts
  have hFind : (options.languages.map block).find?
      (fun node => node.attrs.get? "lang" = some language) =
        (options.languages.find? fun l => l = language).map block := by
    rw [List.find?_map]
    congr 2
    funext l
    simp only [Function.comp_apply, block, get?_lang_block, Option.some.injEq]
  rw [translation?, translations_documentWith, hFind]
  cases hFound : options.languages.find? fun l => l = language with
  | none =>
    have hNot : language ∉ options.languages := fun hMem =>
      List.find?_eq_none.1 hFound language hMem (decide_eq_true rfl)
    rw [if_neg hNot]
    rfl
  | some found =>
    have hIs := List.find?_some hFound
    obtain rfl : found = language := of_decide_eq_true hIs
    rw [if_pos (List.mem_of_find?_eq_some hFound)]
    rfl

end Document

/-- Whether a form can be compiled depends on its languages only in that there is one and none is
repeated. Outside the blocks of their translations, all documents of a form are equal, whatever the
languages are: in particular they have the same instance, binds and body, and show the same labels,
hints and options. The block of a language is the same beside whatever other languages, and the
blocks of languages that are put together are those of the first ones and then those of the
others. -/
theorem compile_languages_independent (form : Form) (options : Options) :
    (∀ first later doc₁ doc₂ doc, form.compile { options with languages := first } = .ok doc₁ →
      form.compile { options with languages := later } = .ok doc₂ →
      form.compile { options with languages := first ++ later } = .ok doc →
      Document.withoutTranslations doc₁ = Document.withoutTranslations doc ∧
      Document.withoutTranslations doc₂ = Document.withoutTranslations doc ∧
      Document.translations doc = Document.translations doc₁ ++ Document.translations doc₂) ∧
    ∀ languages others doc, form.compile { options with languages } = .ok doc →
      others ≠ [] → others.Nodup →
      ∃ doc', form.compile { options with languages := others } = .ok doc' ∧
        Document.withoutTranslations doc' = Document.withoutTranslations doc ∧
        Document.instance? doc' = Document.instance? doc ∧
        Document.binds doc' = Document.binds doc ∧
        doc'.childrenAt ["h:body"] = doc.childrenAt ["h:body"] ∧
        Document.captions doc' = Document.captions doc ∧
        (∀ language ∈ languages, language ∈ others →
          Document.translation? doc' language = Document.translation? doc language) ∧
        ∀ language, (Document.translation? doc' language).isSome = true ↔ language ∈ others := by
  refine ⟨fun first later doc₁ doc₂ doc h₁ h₂ h => ?_,
    fun languages others doc h hSome hOnce => ?_⟩
  · obtain ⟨-, -, rfl⟩ := compile_eq_ok_iff.1 h₁
    obtain ⟨-, -, rfl⟩ := compile_eq_ok_iff.1 h₂
    obtain ⟨-, -, rfl⟩ := compile_eq_ok_iff.1 h
    have hApart := Document.withoutTranslations_documentWith Xml.escape form options
    refine ⟨hApart _ _, hApart _ _, ?_⟩
    rw [Document.translations_documentWith, Document.translations_documentWith,
      Document.translations_documentWith, List.map_append]
    rfl
  · obtain ⟨hCheck, hForm, rfl⟩ := compile_eq_ok_iff.1 h
    obtain ⟨-, -, hRoot⟩ := Options.check_eq_ok_iff.1 hCheck
    have hCheck' : ({ options with languages := others } : Options).check = .ok () :=
      Options.check_eq_ok_iff.2 ⟨hSome, hOnce, hRoot⟩
    refine ⟨_, compile_eq_ok_iff.2 ⟨hCheck', hForm, rfl⟩,
      Document.withoutTranslations_documentWith .., rfl, rfl, rfl, rfl,
      fun language hBefore hAfter => ?_, fun language => ?_⟩
    · rw [Document.translation?_documentWith, Document.translation?_documentWith, if_pos hBefore,
        if_pos hAfter]
      rfl
    · rw [Document.translation?_documentWith]
      split_ifs with hMem
      · exact iff_of_true rfl hMem
      · exact iff_of_false Bool.false_ne_true hMem

/-- A form whose texts are each said in one of two languages. -/
def scatteredForm : Form where
  title := "Scattered"
  controls := [
    .group "g" (some (.ofList [("fr", "Groupe")])) [
      .question { Field.named "q" with
        label := some (.ofList [("de", "Frage")])
        hint := some (.ofList [("en", "Hint")]) }
        (.selectOne [⟨.ofList [("fr", "A")], "a"⟩])]]

/-- Labels and options are shown that no active language has a text for. -/
theorem compile_languages_independent_scattered :
    let document languages :=
      scatteredForm.documentWith Xml.escape { Options.default with languages }
    Document.translations (document ["en", "fr", "it"]) =
        Document.translations (document ["en"]) ++ Document.translations (document ["fr", "it"]) ∧
      Document.captions (document ["fr", "it"]) = Document.captions (document ["en"]) ∧
      Document.translation? (document ["fr", "it", "en"]) "en" =
        Document.translation? (document ["en"]) "en" ∧
      (Document.captions (document ["en"])).map (fun node => node.attrs.get? "ref") =
        [some "jr:itext('/data/g:label')", some "jr:itext('/data/g/q:label')",
          some "jr:itext('/data/g/q:hint')", some "jr:itext('/data/g/q:option0')"] := by
  intro document
  obtain ⟨hTogether, hApart⟩ := compile_languages_independent scatteredForm .default
  have hFirst : scatteredForm.compile { Options.default with languages := ["en"] } =
      .ok (document ["en"]) := rfl
  obtain ⟨-, -, hBlocks⟩ := hTogether ["en"] ["fr", "it"] _ _ _ hFirst rfl rfl
  obtain ⟨doc, hDoc, -, -, -, -, hCaptions, -⟩ :=
    hApart ["en"] ["fr", "it"] _ hFirst (by decide) (by decide)
  obtain rfl := Except.ok.inj hDoc
  obtain ⟨doc, hDoc, -, -, -, -, -, hBlock, -⟩ :=
    hApart ["en"] ["fr", "it", "en"] _ hFirst (by decide) (by decide)
  obtain rfl := Except.ok.inj hDoc
  exact ⟨hBlocks, hCaptions, hBlock "en" (by decide) (by decide), rfl⟩

end FormDesign
