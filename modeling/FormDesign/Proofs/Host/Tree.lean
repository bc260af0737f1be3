import FormDesign.Proofs.Host.Agreement
import FormDesign.Proofs.Xml.Order

/-!
# The tree of a document, given to a host

A host that asks for a tree gets the document as JSON, by way of a value whose members are sorted.
Read as an element, what it gets is the document that was compiled, but for the order of attributes;
so it can look up in the tree what it would find in the document, and rendering the tree makes the
markup, up to that order.

## Main results

* `Host.ofJson_sorted_compact`: the tree of a document is read as the document with its attributes
  in order;
* `Host.compileTree_reads_back`: what is read of the tree.
-/

namespace FormDesign.Host

open Json (Value)
open Xml (Node)

variable {config text : String} {doc : Node}

/-- Where the answer is a tree and no envelope, a request has come to a document. -/
theorem exists_documentOf (h : ¬ IsEnvelope (compileTree config text)) :
    ∃ doc, documentOf config text = .ok doc := by
  cases hDocument : documentOf config text with
  | error failure =>
    rw [compileTree, hDocument] at h
    exact absurd (isEnvelope_envelope failure.message) h
  | ok doc => exact ⟨doc, rfl⟩

/-- The tree of a document is read as the document with its attributes in order. -/
theorem ofJson_sorted_compact (h : doc.toValue.sorted.depth ≤ Json.maxRoom) :
    Node.ofJson doc.toValue.sorted.compact = .ok doc.sorted := by
  rw [Value.depth_sorted] at h
  exact (Json.readText_print Node.read .compact _).trans (doc.read_sorted_toValue _ h)

/-- Where the answer of a compilation is a tree, it is written of the document that the form
compiles to with the options, and the members of every object are in the order of their keys. If it
does not nest too deeply, it is read as the document with the attributes of every element in the
order of their keys and nothing else changed; in every element both look up the same, and they
render to texts that differ at most in the order of attributes inside tags. -/
theorem compileTree_reads_back (config text : String)
    (hTree : ¬ IsEnvelope (compileTree config text)) :
    ∃ options form doc,
      optionsOf config = .ok options ∧ Form.ofJson text = .ok form ∧
      form.compile options = .ok doc ∧ compileXml config text = doc.render ∧
      compileTree config text = doc.toValue.sorted.compact ∧ doc.toValue.sorted.IsOrdered ∧
      (doc.toValue.sorted.depth ≤ Json.maxRoom →
        ∃ node, Node.ofJson (compileTree config text) = .ok node ∧ doc.SortedAs node ∧
          List.Forall₂ Node.AnswersAs doc.elements node.elements ∧
          Node.TagsReordered (compileXml config text) node.render) := by
  obtain ⟨doc, hDocument⟩ := exists_documentOf hTree
  obtain ⟨options, form, hOptions, hForm, hCompile⟩ := documentOf_eq_ok_iff.1 hDocument
  have hXml : compileXml config text = doc.render := by rw [compileXml, hDocument]
  have hJson : compileTree config text = doc.toValue.sorted.compact := by
    rw [compileTree, hDocument]
  refine ⟨options, form, doc, hOptions, hForm, hCompile, hXml, hJson,
    doc.isOrdered_sorted_toValue, fun hDepth => ⟨doc.sorted, ?_, doc.sortedAs_sorted, ?_, ?_⟩⟩
  · rw [hJson]
    exact ofJson_sorted_compact hDepth
  · rw [Node.elements_sorted]
    exact List.forall₂_map_right_iff.2 (List.forall₂_same.2 fun node _ => node.answersAs_sorted)
  · rw [hXml]
    exact doc.tagsReordered_render

/-- A document of one question that has to be answered. -/
def arrivalDocument : Value :=
  .object [
    ("title", .string "Arrival"),
    ("controls", .array [
      .object [("type", .string "inputDate"), ("name", .string "day"), ("required", .bool true)]])]

/-- What `arrivalDocument` is read as. -/
def arrivalForm : Form where
  title := "Arrival"
  controls := [.question { Field.named "day" with required := true } .date]

/-- In the tree of `arrivalForm`, the bind says that it is required before it says its type. -/
theorem compileTree_reads_back_arrival :
    let text := arrivalDocument.compact
    let doc := arrivalForm.documentWith Xml.escape .default
    let bind := ["h:head", "model", "bind"]
    ¬ IsEnvelope (compileTree " " text) ∧ doc.toValue.sorted.depth ≤ Json.maxRoom ∧
      ∃ node, Node.ofJson (compileTree " " text) = .ok node ∧ doc.SortedAs node ∧
        Node.TagsReordered (compileXml " " text) node.render ∧
        (doc.descend? bind).map (·.attrs.keys) = some ["nodeset", "type", "required"] ∧
        (node.descend? bind).map (·.attrs.keys) = some ["nodeset", "required", "type"] := by
  intro text doc bind
  have hOptions : optionsOf " " = .ok .default := rfl
  have hForm : Form.ofJson text = .ok arrivalForm :=
    (Json.readText_print Form.read .compact arrivalDocument).trans rfl
  have hAccepted : Options.default.check = .ok () := by decide +kernel
  have hCompile : arrivalForm.compile .default = .ok doc := by
    rw [Form.compile, hAccepted]
    rfl
  have hDocument : documentOf " " text = .ok doc :=
    documentOf_eq_ok_iff.2 ⟨.default, arrivalForm, hOptions, hForm, hCompile⟩
  have hTree : ¬ IsEnvelope (compileTree " " text) := by
    rw [compileTree, hDocument]
    exact not_isEnvelope_tree arrivalForm .default
  have hDepth : doc.toValue.sorted.depth ≤ Json.maxRoom := by
    rw [Value.depth_sorted]
    decide +kernel
  obtain ⟨options, form, doc', hOptions', hForm', hCompile', -, hJson, -, hRead⟩ :=
    compileTree_reads_back " " text hTree
  obtain rfl : .default = options := Except.ok.inj (hOptions.symm.trans hOptions')
  obtain rfl : arrivalForm = form := Except.ok.inj (hForm.symm.trans hForm')
  obtain rfl : doc = doc' := Except.ok.inj (hCompile.symm.trans hCompile')
  obtain ⟨node, hNode, hSorted, -, hText⟩ := hRead hDepth
  have hSame : Node.ofJson (compileTree " " text) = .ok doc.sorted := by
    rw [hJson]
    exact ofJson_sorted_compact hDepth
  have hKeys : (doc.descend? bind).map (·.attrs.keys) = some ["nodeset", "type", "required"] := by
    decide +kernel
  have hSortedKeys : (doc.sorted.descend? bind).map (·.attrs.keys) =
      some ["nodeset", "required", "type"] := by
    decide +kernel
  obtain rfl : doc.sorted = node := Except.ok.inj (hSame.symm.trans hNode)
  exact ⟨hTree, hDepth, doc.sorted, hNode, hSorted, hText, hKeys, hSortedKeys⟩

end FormDesign.Host
