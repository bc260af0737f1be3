import FormDesign.Host
import FormDesign.Proofs.Json.Order
import FormDesign.Proofs.Json.Text
import FormDesign.Proofs.Outline.WellFormed

/-!
# Answers to hosts

A host asks for a check, for markup or for a tree. Each entry point goes its own way through the
options, the form and the two checks, and each wraps what it finds in its own way. That they agree
is what a host relies on: a check says what a compilation would come to, both compilations come to
the same, and no document is taken for a failure.

## Main definitions

* `Host.envelope`, `Host.validAnswer`, `Host.invalidAnswer`: the answers that are objects;
* `Host.IsEnvelope`: a text that says that a request came to nothing.

## Main results

* `Value.ofValue_eq_of_compact_eq`: values that are written alike have the same tree;
* `Host.optionsOf_print_object`: options that are written as an object are read from its tree;
* `Host.documentOf_eq`: what a request comes to when its options have been read;
* `Host.entry_points_agree`: the three entry points agree.
-/

namespace FormDesign

open Json (Value Tree Fault)
open Xml (Node)

/-! ## Texts of values -/

/-- Values that are written alike have the same tree. -/
theorem Json.Value.ofValue_eq_of_compact_eq {v w : Value} (h : v.compact = w.compact) :
    Tree.ofValue v = Tree.ofValue w := by
  have hRead : ∀ u : Value, Json.readText (fun _ t => (.ok t : Except Fault Tree)) u.compact =
      .ok (.ofValue u) := fun u => Json.readText_print _ .compact u
  have hSame := hRead v
  rw [h, hRead w] at hSame
  exact (Except.ok.inj hSame).symm

/-- A string token is written for one text only. -/
theorem Json.StringToken.ofString_injective {s t : String}
    (h : Json.StringToken.ofString s = Json.StringToken.ofString t) : s = t := by
  have hRead := Json.read_ofString s
  rw [h, Json.read_ofString t] at hRead
  exact (Except.ok.inj hRead).symm

/-- Objects that are written alike have the same number of members. -/
theorem Json.Value.length_eq_of_compact_eq {members members' : List (String × Value)}
    (h : (Value.object members).compact = (Value.object members').compact) :
    members.length = members'.length := by
  have hTree := ofValue_eq_of_compact_eq h
  rw [Tree.ofValue_object, Tree.ofValue_object] at hTree
  have hMembers := (Tree.object.inj hTree).1
  simpa using congrArg List.length hMembers

/-- Objects that are written alike and begin with a text under the same key begin with the same
text. -/
theorem Json.Value.eq_of_compact_eq {key s t : String} {members members' : List (String × Value)}
    (h : (Value.object ((key, .string s) :: members)).compact =
      (Value.object ((key, .string t) :: members')).compact) : s = t := by
  have hTree := ofValue_eq_of_compact_eq h
  simp only [Tree.ofValue_object, List.map_cons, Tree.ofValue_string] at hTree
  have hMembers := (Tree.object.inj hTree).1
  have hToken := (Prod.mk.inj (List.cons.inj hMembers).1).2
  exact StringToken.ofString_injective (Tree.string.inj hToken)

/-- Sorting members keeps their number. -/
theorem Json.Value.length_sortedMembers (members : List (String × Value)) :
    (sortedMembers members).length = members.length := by
  rw [(sortedMembers_perm members).length_eq, List.length_map]

/-- A text goes on behind any of its beginnings. -/
theorem exists_append_of_prefix {s start : String} (h : start.toList <+: s.toList) :
    ∃ rest, s = start ++ rest := by
  obtain ⟨cs, hChars⟩ := h
  refine ⟨String.ofList cs, ?_⟩
  rw [← String.toList_inj, String.toList_append, String.toList_ofList, hChars]

/-- An object is written from its bracket on, whatever the layout. -/
theorem Json.Value.exists_print_object (layout : Layout) (members : List (String × Value)) :
    ∃ rest, (Value.object members).print layout = "\x7b" ++ rest := by
  have hBracket : (Lexeme.token .openObject).chars = "\x7b".toList := by decide
  have hChars : ((object members).print layout).toList =
      ((object members).lexemes layout 0).flatMap Lexeme.chars := by
    rw [print, String.toList_ofList]
  apply exists_append_of_prefix
  rw [hChars, ← hBracket]
  cases members with
  | nil =>
    rw [lexemes]
    exact List.prefix_append _ _
  | cons member members =>
    rw [lexemes]
    simp only [List.cons_append, List.flatMap_cons]
    exact List.prefix_append _ _

/-! ## Documents -/

/-- The markup of a document begins with the tag of its root and the labels of the namespaces. -/
theorem exists_render_documentWith (form : Form) (options : Options) :
    ∃ rest, (form.documentWith Xml.escape options).render = "<h:html " ++ rest := by
  have hEntries : (Xml.Attributes.ofList namespaces).entries = namespaces := by decide
  have hTag : ∀ rest, Xml.indent 0 ++ ("<" ++ "h:html" ++ (" " ++ rest)) = "<h:html " ++ rest := by
    intro rest
    rw [← String.append_assoc, ← String.append_assoc]
    rfl
  rw [Form.documentWith, Fragment.document, Node.render, Node.renderAt, Node.tagStart,
    Xml.Attributes.render, hEntries, namespaces, List.map_cons]
  simp only [String.join_cons, String.append_assoc] at hTag ⊢
  rw [hTag]
  exact ⟨_, rfl⟩

/-- The tree of a document has a name, attributes and children. -/
theorem exists_sorted_documentWith (form : Form) (options : Options) :
    ∃ members, (form.documentWith Xml.escape options).toValue.sorted = .object members ∧
      members.length = 3 := by
  have hAttrs : (Xml.Attributes.ofList namespaces).isEmpty = false := by decide
  rw [Form.documentWith, Fragment.document, Node.toValue, Node.head, hAttrs, Value.sorted]
  exact ⟨_, rfl, Value.length_sortedMembers _⟩

namespace Host

/-! ## Answers -/

/-- The answer to a request that comes to nothing, with the words for why. -/
def envelope (message : String) : String :=
  (Value.object [("error", .string message)]).compact

/-- The answer to a check that finds nothing. -/
def validAnswer : String :=
  (Value.object [("valid", .bool true)]).compact

/-- The answer to a check that finds something, with the words for it. -/
def invalidAnswer (message : String) : String :=
  (Value.object [("error", .string message), ("valid", .bool false)]).compact

/-- Whether a text says that a request came to nothing. -/
def IsEnvelope (answer : String) : Prop :=
  ∃ message, answer = envelope message

theorem isEnvelope_envelope (message : String) : IsEnvelope (envelope message) :=
  ⟨message, rfl⟩

theorem envelope_injective {m m' : String} (h : envelope m = envelope m') : m = m' :=
  Value.eq_of_compact_eq h

theorem invalidAnswer_injective {m m' : String} (h : invalidAnswer m = invalidAnswer m') :
    m = m' :=
  Value.eq_of_compact_eq h

theorem validAnswer_ne_invalidAnswer (message : String) : validAnswer ≠ invalidAnswer message :=
  fun h => nomatch Value.length_eq_of_compact_eq h

/-- What begins as markup is no envelope. -/
theorem not_isEnvelope_of_markup {answer : String} (h : ∃ rest, answer = "<h:html " ++ rest) :
    ¬ IsEnvelope answer := by
  rintro ⟨message, rfl⟩
  obtain ⟨rest, hMarkup⟩ := h
  obtain ⟨rest', hObject⟩ := Value.exists_print_object .compact [("error", .string message)]
  rw [envelope, Value.compact, hObject] at hMarkup
  have hFirst := congrArg (fun s : String => s.toList.head?) hMarkup
  simp [String.toList_append] at hFirst

/-- Options that are written as an object are read from its tree, as an object is not blank. -/
theorem optionsOf_print_object (layout : Json.Layout) (members : List (String × Value)) :
    optionsOf ((Value.object members).print layout) =
      (readConfig Json.maxRoom (.ofValue (.object members))).mapError .config := by
  obtain ⟨rest, hBracket⟩ := Value.exists_print_object layout members
  have hBlank : Text.isBlank ((Value.object members).print layout) = false := by
    rw [hBracket, Text.isBlank_append]
    rfl
  rw [optionsOf, if_neg (ne_true_of_eq_false hBlank), Json.readText_print]

/-! ## Checks -/

section

variable {text : String} {fault : Fault} {form : Form} {defect : Defect}

theorem formOf_eq_ok (h : Form.ofJson text = .ok form) : formOf text = .ok form := by
  rw [formOf, h]
  rfl

theorem check_of_fault (h : Form.ofJson text = .error fault) :
    check text = invalidAnswer (Failure.form fault).message := by
  rw [check, formOf, h]
  rfl

theorem check_of_defect (h : Form.ofJson text = .ok form) (hCheck : form.check = .error defect) :
    check text = invalidAnswer defect.message := by
  rw [check, formOf_eq_ok h, ok_bind, hCheck]
  rfl

theorem check_of_ok (h : Form.ofJson text = .ok form) (hCheck : form.check = .ok ()) :
    check text = validAnswer := by
  rw [check, formOf_eq_ok h, ok_bind, hCheck]
  rfl

/-- A check finds nothing, or something that it has words for. -/
theorem check_eq_or (text : String) :
    check text = validAnswer ∨ ∃ message, check text = invalidAnswer message := by
  cases hForm : Form.ofJson text with
  | error fault => exact .inr ⟨_, check_of_fault hForm⟩
  | ok form =>
    cases hCheck : form.check with
    | error defect => exact .inr ⟨_, check_of_defect hForm hCheck⟩
    | ok u => exact .inl (check_of_ok hForm hCheck)

/-! ## Compilations -/

variable {config : String} {options : Options}

/-- Where the options have been read, a request comes to what compiling the form with them does. -/
theorem documentOf_eq (hOptions : optionsOf config = .ok options) :
    documentOf config text =
      formOf text >>= fun form => (form.compile options).mapError .refused := by
  rw [documentOf, hOptions]
  rfl

theorem compileXml_of_error {failure : Failure} (h : documentOf config text = .error failure) :
    compileXml config text = envelope failure.message := by
  rw [compileXml, h]
  rfl

theorem compileXml_of_fault (hOptions : optionsOf config = .ok options)
    (h : Form.ofJson text = .error fault) :
    compileXml config text = envelope (Failure.form fault).message := by
  apply compileXml_of_error
  rw [documentOf_eq hOptions, formOf, h]
  rfl

/-- The options are refused before the form is looked at. -/
theorem compileXml_of_options (hOptions : optionsOf config = .ok options)
    (h : Form.ofJson text = .ok form) (hCheck : options.check = .error defect) :
    compileXml config text = envelope defect.message := by
  have hFailure : (Failure.refused defect).message = defect.message := rfl
  rw [← hFailure]
  apply compileXml_of_error
  rw [documentOf_eq hOptions, formOf_eq_ok h, ok_bind, Form.compile, hCheck]
  rfl

theorem compileXml_of_defect (hOptions : optionsOf config = .ok options)
    (h : Form.ofJson text = .ok form) (hAccepted : options.check = .ok ())
    (hCheck : form.check = .error defect) : compileXml config text = envelope defect.message := by
  have hFailure : (Failure.refused defect).message = defect.message := rfl
  rw [← hFailure]
  apply compileXml_of_error
  rw [documentOf_eq hOptions, formOf_eq_ok h, ok_bind, Form.compile, hAccepted, hCheck]
  rfl

theorem compileXml_of_ok (hOptions : optionsOf config = .ok options)
    (h : Form.ofJson text = .ok form) (hAccepted : options.check = .ok ())
    (hCheck : form.check = .ok ()) :
    compileXml config text = (form.documentWith Xml.escape options).render := by
  have hDocument : documentOf config text = .ok (form.documentWith Xml.escape options) := by
    rw [documentOf_eq hOptions, formOf_eq_ok h, ok_bind, Form.compile, hAccepted, hCheck]
    rfl
  rw [compileXml, hDocument]

/-- A request comes to a document when the options and the form can be read and the form can be
compiled with the options. -/
theorem documentOf_eq_ok_iff {doc : Node} : documentOf config text = .ok doc ↔
    ∃ options form, optionsOf config = .ok options ∧ Form.ofJson text = .ok form ∧
      form.compile options = .ok doc := by
  simp only [documentOf, formOf, bind_eq_ok_iff, mapError_eq_ok_iff, exists_and_left]

/-- What a request comes to is a document of some form, if it comes to anything. -/
theorem exists_of_documentOf {doc : Node} (h : documentOf config text = .ok doc) :
    ∃ (form : Form) (options : Options), doc = form.documentWith Xml.escape options := by
  obtain ⟨options, form, -, -, hCompile⟩ := documentOf_eq_ok_iff.1 h
  exact ⟨form, options, (compile_eq_ok_iff.1 hCompile).2.2.symm⟩

/-- What a request comes to, if it comes to anything, is rendered as markup. -/
theorem exists_render_of_documentOf {doc : Node} (h : documentOf config text = .ok doc) :
    ∃ rest, doc.render = "<h:html " ++ rest := by
  obtain ⟨form, options, rfl⟩ := exists_of_documentOf h
  exact exists_render_documentWith form options

end

/-- The tree of a document has more members than an envelope. -/
theorem not_isEnvelope_tree (form : Form) (options : Options) :
    ¬ IsEnvelope (form.documentWith Xml.escape options).toValue.sorted.compact := by
  rintro ⟨message, hEnvelope⟩
  obtain ⟨members, hTree, hLength⟩ := exists_sorted_documentWith form options
  rw [hTree] at hEnvelope
  have hMembers := Value.length_eq_of_compact_eq hEnvelope
  rw [hLength] at hMembers
  exact nomatch hMembers

/-- Both compilations come to nothing together, and then answer alike; otherwise the markup begins
with the tag of its root. -/
theorem compilations_agree (config text : String) :
    (IsEnvelope (compileXml config text) ↔ IsEnvelope (compileTree config text)) ∧
      (IsEnvelope (compileXml config text) → compileXml config text = compileTree config text) ∧
      (¬ IsEnvelope (compileXml config text) →
        ∃ rest, compileXml config text = "<h:html " ++ rest) := by
  cases hDocument : documentOf config text with
  | error failure =>
    have hXml : compileXml config text = envelope failure.message := compileXml_of_error hDocument
    have hTree : compileTree config text = envelope failure.message := by
      rw [compileTree, hDocument]
      rfl
    rw [hXml, hTree]
    exact ⟨Iff.rfl, fun _ => rfl, fun hNot => absurd (isEnvelope_envelope _) hNot⟩
  | ok doc =>
    have hMarkup := exists_render_of_documentOf hDocument
    obtain ⟨form, options, rfl⟩ := exists_of_documentOf hDocument
    rw [compileXml, compileTree, hDocument]
    dsimp only
    have hXml := not_isEnvelope_of_markup hMarkup
    exact ⟨iff_of_false hXml (not_isEnvelope_tree form options), fun h => absurd h hXml,
      fun _ => hMarkup⟩

/-- A check and a compilation that fail in the same words agree. -/
theorem check_agrees_of_failure {config text words : String}
    (hCheck : check text = invalidAnswer words) (hXml : compileXml config text = envelope words) :
    (check text = validAnswer ↔ ¬ IsEnvelope (compileXml config text)) ∧
      ∀ message, check text = invalidAnswer message ↔
        compileXml config text = envelope message := by
  rw [hCheck, hXml]
  refine ⟨iff_of_false (validAnswer_ne_invalidAnswer _).symm
    (not_not_intro (isEnvelope_envelope _)), fun message => ?_⟩
  constructor
  · exact fun h => congrArg envelope (invalidAnswer_injective h)
  · exact fun h => congrArg invalidAnswer (envelope_injective h)

/-- With blank options, a check finds a form valid exactly when compiling it comes to something, and
finds fault with it in the same words. -/
theorem check_agrees {config : String} (hBlank : Text.isBlank config = true) (text : String) :
    (check text = validAnswer ↔ ¬ IsEnvelope (compileXml config text)) ∧
      ∀ message, check text = invalidAnswer message ↔
        compileXml config text = envelope message := by
  have hOptions : optionsOf config = .ok .default := by rw [optionsOf, if_pos hBlank]
  have hAccepted : Options.default.check = .ok () := by decide +kernel
  cases hForm : Form.ofJson text with
  | error fault =>
    exact check_agrees_of_failure (check_of_fault hForm) (compileXml_of_fault hOptions hForm)
  | ok form =>
    cases hCheck : form.check with
    | error defect =>
      exact check_agrees_of_failure (check_of_defect hForm hCheck)
        (compileXml_of_defect hOptions hForm hAccepted hCheck)
    | ok u =>
      have hXml : ¬ IsEnvelope (compileXml config text) := by
        rw [compileXml_of_ok hOptions hForm hAccepted hCheck]
        exact not_isEnvelope_of_markup (exists_render_documentWith form _)
      refine ⟨iff_of_true (check_of_ok hForm hCheck) hXml, fun message => iff_of_false ?_ ?_⟩
      · rw [check_of_ok hForm hCheck]
        exact validAnswer_ne_invalidAnswer message
      · exact fun h => hXml ⟨message, h⟩

/-- Compiling to markup and compiling to a tree come to nothing together, and then answer alike;
otherwise the markup begins with the tag of its root, and no envelope does. With blank options, a
check finds a form valid exactly when compiling it comes to something, and finds fault with it in
the same words. And where the options have been read, compiling answers with what is wrong with the
text of the form, or else with the options, or else with the form, or else with a document. -/
theorem entry_points_agree :
    (∀ config text : String,
      (IsEnvelope (compileXml config text) ↔ IsEnvelope (compileTree config text)) ∧
      (IsEnvelope (compileXml config text) → compileXml config text = compileTree config text) ∧
      (¬ IsEnvelope (compileXml config text) →
        ∃ rest, compileXml config text = "<h:html " ++ rest)) ∧
    (∀ message : String, ∃ rest, envelope message = "\x7b" ++ rest) ∧
    (∀ config text : String, Text.isBlank config = true →
      (check text = validAnswer ↔ ¬ IsEnvelope (compileXml config text)) ∧
      ∀ message, check text = invalidAnswer message ↔
        compileXml config text = envelope message) ∧
    ∀ (config text : String) (options : Options), optionsOf config = .ok options →
      (∀ fault, Form.ofJson text = .error fault →
        compileXml config text = envelope (Failure.form fault).message) ∧
      ∀ form, Form.ofJson text = .ok form →
        (∀ defect, options.check = .error defect →
          compileXml config text = envelope defect.message) ∧
        (∀ defect, options.check = .ok () → form.check = .error defect →
          compileXml config text = envelope defect.message) ∧
        (options.check = .ok () → form.check = .ok () →
          ¬ IsEnvelope (compileXml config text)) := by
  refine ⟨compilations_agree, fun message => Value.exists_print_object .compact _,
    fun config text hBlank => check_agrees hBlank text,
    fun config text options hOptions => ⟨fun fault hForm => compileXml_of_fault hOptions hForm,
      fun form hForm => ?answers⟩⟩
  case answers =>
    refine ⟨fun defect hCheck => compileXml_of_options hOptions hForm hCheck,
      fun defect hAccepted hCheck => compileXml_of_defect hOptions hForm hAccepted hCheck,
      fun hAccepted hCheck => ?_⟩
    rw [compileXml_of_ok hOptions hForm hAccepted hCheck]
    exact not_isEnvelope_of_markup (exists_render_documentWith form options)

/-- A document of two questions with one name. -/
def twinsDocument : Value :=
  .object [
    ("title", .string "Twins"),
    ("controls", .array [
      .object [("type", .string "inputDate"), ("name", .string "q")],
      .object [("type", .string "inputDate"), ("name", .string "q")]])]

/-- What `twinsDocument` is read as. -/
def twinsForm : Form where
  title := "Twins"
  controls := [.question (Field.named "q") .date, .question (Field.named "q") .date]

/-- With no active language the options are at fault, and otherwise the form is, whichever entry
point is asked. -/
theorem entry_points_agree_twins :
    let text := twinsDocument.compact
    let mute := (Value.object [("languages", .array [])]).compact
    Form.ofJson text = .ok twinsForm ∧
      optionsOf mute = .ok { Options.default with languages := [] } ∧
      compileXml mute text = envelope Defect.noLanguages.message ∧
      compileTree mute text = envelope Defect.noLanguages.message ∧
      compileXml " " text = envelope (Defect.duplicateName "/" "q").message ∧
      check text = invalidAnswer (Defect.duplicateName "/" "q").message := by
  intro text mute
  have hForm : Form.ofJson text = .ok twinsForm :=
    (Json.readText_print Form.read .compact twinsDocument).trans rfl
  have hMute : optionsOf mute = .ok { Options.default with languages := [] } :=
    (optionsOf_print_object .compact _).trans rfl
  have hBlank : optionsOf " " = .ok .default := rfl
  obtain ⟨hCompilations, -, hChecks, hFailures⟩ := entry_points_agree
  have hXml : compileXml mute text = envelope Defect.noLanguages.message :=
    ((hFailures mute text _ hMute).2 _ hForm).1 _ rfl
  have hTwins : compileXml " " text = envelope (Defect.duplicateName "/" "q").message :=
    ((hFailures " " text _ hBlank).2 _ hForm).2.1 _ rfl rfl
  have hTree : compileXml mute text = compileTree mute text :=
    (hCompilations mute text).2.1 ⟨_, hXml⟩
  exact ⟨hForm, hMute, hXml, hTree.symm.trans hXml, hTwins, ((hChecks " " text rfl).2 _).2 hTwins⟩

end Host

end FormDesign
