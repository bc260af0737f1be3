import FormDesign.Proofs.Document.Languages
import FormDesign.Proofs.Form.FirstFault

/-!
# Forms put together

The controls of a form may be compiled in parts. Where the controls of one form are followed by
those of another, the whole compiles exactly when both parts do and no name stands in the top-level
scopes of both. Its document then holds what the parts contribute, one after the other, in each of
the places that controls contribute to. Nothing of a control reaches those before or after it.

## Main definitions

* `Document.fields`, `Document.entries`: what controls contribute to the instance and to each
  translation;
* `Document.shell`: a document without what its controls contribute;
* `Document.IsComposed`: a document that holds what two others do, one after the other.

## Main results

* `isSound_append_iff`: when controls that are put together make a sound scope;
* `fragments_append`: what controls contribute that are put together;
* `compile_append`: all of this for the result of compiling a form.
-/

namespace FormDesign

open Xml (Node)

/-! ## Scopes -/

/-- A scope that is put together is sound when both parts are and share no name. -/
theorem isSound_append_iff {first later : List Control} :
    IsSound (first ++ later) ↔ IsSound first ∧ IsSound later ∧
      List.Disjoint (first.map Control.ownName) (later.map Control.ownName) := by
  constructor
  · rintro ⟨hProper, hDistinct, hInOrder⟩
    -- names are distinct in the whole: in each part, and across the two
    rw [List.map_append, List.nodup_append'] at hDistinct
    obtain ⟨hFirst, hLater, hApart⟩ := hDistinct
    rw [List.forall_mem_append] at hProper hInOrder
    exact ⟨⟨hProper.1, hFirst, hInOrder.1⟩, ⟨hProper.2, hLater, hInOrder.2⟩, hApart⟩
  · rintro ⟨hFirst, hLater, hApart⟩
    refine ⟨List.forall_mem_append.2 ⟨hFirst.proper, hLater.proper⟩, ?_,
      List.forall_mem_append.2 ⟨hFirst.inOrder, hLater.inOrder⟩⟩
    rw [List.map_append]
    exact hFirst.distinct.append hLater.distinct hApart

namespace Control

theorem flattenAll_append (first later : List Control) :
    flattenAll (first ++ later) = flattenAll first ++ flattenAll later := by
  induction first with
  | nil => rw [List.nil_append, flattenAll, List.nil_append]
  | cons control controls ih =>
    rw [List.cons_append, flattenAll, flattenAll, ih, List.append_assoc]

theorem scopesAll_append (first later : List Control) :
    scopesAll (first ++ later) = scopesAll first ++ scopesAll later := by
  induction first with
  | nil => rw [List.nil_append, scopesAll, List.nil_append]
  | cons control controls ih =>
    rw [List.cons_append, scopesAll, scopesAll, ih, List.append_assoc]

/-- What controls contribute that are put together. The scope is the same for all of them. -/
theorem fragments_append (quote : String → String) (refs : BodyRefs) (scope : Scope)
    (first later : List Control) :
    fragments quote refs scope (first ++ later) =
      fragments quote refs scope first ++ fragments quote refs scope later := by
  induction first with
  | nil => rw [List.nil_append, fragments, Fragment.empty_append]
  | cons control controls ih =>
    rw [List.cons_append, fragments, fragments, ih, Fragment.append_assoc]

end Control

/-- The names in the top-level scope of a form, those in the arms of branches included. -/
def Form.topNames (form : Form) : List String :=
  form.flatten.controls.map Control.ownName

/-- A form compiles when the options pass their check and all scopes of the form are sound. -/
theorem exists_compile_eq_ok_iff {form : Form} {options : Options} :
    (∃ doc, form.compile options = .ok doc) ↔
      options.check = .ok () ∧ ∀ scope ∈ form.scopes, IsSound scope := by
  have hScopes : form.outline.WellFormed ↔ ∀ scope ∈ form.scopes, IsSound scope := by
    rw [Outline.wellFormed_iff_scopes, controls_outline, Form.scopes, List.forall_mem_cons]
  simp only [compile_eq_ok_iff, hScopes]
  constructor
  · rintro ⟨doc, hOptions, hSound, -⟩
    exact ⟨hOptions, hSound⟩
  · rintro ⟨hOptions, hSound⟩
    exact ⟨_, hOptions, hSound, rfl⟩

/-- All scopes of a form that is put together are sound when those of both parts are and the two
share no name at the top level. Names inside groups may be shared. -/
theorem forall_scopes_append_iff {title : String} {first later : List Control} :
    (∀ scope ∈ (Form.mk title (first ++ later)).scopes, IsSound scope) ↔
      (∀ scope ∈ (Form.mk title first).scopes, IsSound scope) ∧
      (∀ scope ∈ (Form.mk title later).scopes, IsSound scope) ∧
      List.Disjoint (Form.mk title first).topNames (Form.mk title later).topNames := by
  simp only [Form.scopes, Form.topNames, Form.flatten, Control.flattenAll_append,
    Control.scopesAll_append, List.forall_mem_cons, List.forall_mem_append, isSound_append_iff]
  tauto

/-! ## Documents -/

namespace Xml.Node

/-- The element with each of those directly inside it changed. -/
def mapChildren (f : Node → Node) : Node → Node
  | parent name attrs children => parent name attrs (children.map f)
  | node => node

/-- The element without those directly inside it that have this name. -/
def dropChildren (name : String) : Node → Node
  | parent own attrs children => parent own attrs (children.filter (·.name ≠ name))
  | node => node

end Xml.Node

namespace Document

/-- What stands in the root of the instance. -/
def fields (doc : Node) : List Node :=
  (doc.childrenAt ["h:head", "model", "instance"]).flatMap Node.children

/-- The entries of each translation. -/
def entries (doc : Node) : List (List Node) :=
  (translations doc).map Node.children

/-- The model without binds, with nothing in the root of the instance and in the translations. -/
def modelShell (model : Node) : Node :=
  let empty := Node.mapChildren Node.withoutChildren
  ((model.dropChildren "bind").onChildren "instance" empty).onChildren "itext" empty

/-- The document without what its controls contribute to the model and to the body. -/
def shell (doc : Node) : Node :=
  (doc.onChildren "h:head" (Node.onChildren "model" modelShell)).onChildren "h:body"
    Node.withoutChildren

/-- A document that holds what two others do, one after the other: in the root of the instance,
among the binds, in each translation and in the body. Nothing else in it differs from either. -/
structure IsComposed (first later doc : Node) : Prop where
  shell_first : shell first = shell doc
  shell_later : shell later = shell doc
  fields : fields doc = fields first ++ fields later
  binds : binds doc = binds first ++ binds later
  entries : entries doc = List.zipWith (· ++ ·) (entries first) (entries later)
  body : doc.childrenAt ["h:body"] = first.childrenAt ["h:body"] ++ later.childrenAt ["h:body"]

end Document

namespace Fragment

variable (quote : String → String) (f g : Fragment) (title : String) (options : Options)

theorem fields_document : Document.fields (f.document quote title options) = f.inst := by
  have hRoot : (f.document quote title options).childrenAt ["h:head", "model", "instance"] =
      [f.instanceRoot quote options] := rfl
  rw [Document.fields, hRoot, List.flatMap_singleton, children_instanceRoot]

theorem entries_document : Document.entries (f.document quote title options) =
    options.languages.map fun language =>
      f.texts.map fun e => Translations.entry quote language e.1 e.2 := by
  rw [Document.entries, translations_document, List.map_map]
  rfl

/-- A block without its entries does not depend on the texts. -/
theorem withoutChildren_itext :
    (f.translations quote options).itext.mapChildren Node.withoutChildren =
      (Translations.empty options.languages).itext.mapChildren Node.withoutChildren := by
  have hEmpty : (Translations.empty options.languages).itext =
      .parent "itext" .empty (options.languages.map (Translations.block quote [])) :=
    Translations.itext_registerAll options.languages []
  rw [itext_translations, hEmpty, Node.mapChildren, Node.mapChildren, List.map_map, List.map_map]
  rfl

theorem withoutChildren_instanceRoot :
    (f.instanceRoot quote options).withoutChildren = empty.instanceRoot quote options := by
  unfold instanceRoot
  cases options.formId with
  | none => rfl
  | some formId => rfl

/-- What a fragment contributes does not show in the shell of its model. -/
theorem modelShell_model (hBinds : ∀ node ∈ f.binds, node.name = "bind") :
    Document.modelShell (f.model quote options) = .parent "model" .empty [
      .parent "instance" .empty [empty.instanceRoot quote options],
      (Translations.empty options.languages).itext.mapChildren Node.withoutChildren] := by
  have hNone : f.binds.filter (·.name ≠ "bind") = [] := by
    rw [List.filter_eq_nil_iff]
    intro node hNode
    simp [hBinds node hNode]
  have hDrop : (f.model quote options).dropChildren "bind" =
      .parent "model" .empty [.parent "instance" .empty [f.instanceRoot quote options],
        (f.translations quote options).itext] := by
    -- the instance and the translations are named otherwise
    rw [model, Node.dropChildren, List.filter_cons_of_pos (by simp [Node.name]),
      List.filter_cons_of_pos (by simp [Translations.itext, Node.name]), hNone]
  rw [Document.modelShell, hDrop, ← withoutChildren_instanceRoot quote f options]
  exact congrArg (fun itext => Node.parent "model" .empty [_, itext])
    (withoutChildren_itext quote f options)

/-- What a fragment contributes does not show in the shell of its document. -/
theorem shell_document (hBinds : ∀ node ∈ f.binds, node.name = "bind") :
    Document.shell (f.document quote title options) =
      Document.shell (empty.document quote title options) := by
  have hEmpty := modelShell_model quote empty options (List.forall_mem_nil _)
  change Node.parent _ _ [.parent _ _ [_, Document.modelShell (f.model quote options)], _] =
    Node.parent _ _ [.parent _ _ [_, Document.modelShell (empty.model quote options)], _]
  rw [modelShell_model quote f options hBinds, hEmpty]
  rfl

/-- A fragment that is put together has the document that joins those of its parts. -/
theorem isComposed_document (hFirst : ∀ node ∈ f.binds, node.name = "bind")
    (hLater : ∀ node ∈ g.binds, node.name = "bind") :
    Document.IsComposed (f.document quote title options) (g.document quote title options)
      ((f ++ g).document quote title options) := by
  have hBoth : ∀ node ∈ (f ++ g).binds, node.name = "bind" :=
    List.forall_mem_append.2 ⟨hFirst, hLater⟩
  have hShell := shell_document quote (f ++ g) title options hBoth
  refine ⟨?_, ?_, ?_, ?_, ?_, rfl⟩
  · exact (shell_document quote f title options hFirst).trans hShell.symm
  · exact (shell_document quote g title options hLater).trans hShell.symm
  · simp only [fields_document, inst_append]
  · simp only [binds_document, binds_append, List.filter_append]
  · -- a language has the entries of all texts in its own block
    simp only [entries_document, texts_append, List.map_append]
    rw [List.zipWith_map, List.zipWith_self]

end Fragment

/-! ## Forms -/

/-- A form whose controls are those of a first form and then those of a later one compiles exactly
when both compile and no name stands in the top-level scopes of both, whatever arms of branches hold
it. Its document is joined from theirs: the root of the instance, the binds, each translation and
the body hold what the first document has there and then what the later one has, and all else is the
same in the three of them. -/
theorem compile_append (title : String) (options : Options) (first later : List Control) :
    ((∃ doc, (Form.mk title (first ++ later)).compile options = .ok doc) ↔
      (∃ doc, (Form.mk title first).compile options = .ok doc) ∧
      (∃ doc, (Form.mk title later).compile options = .ok doc) ∧
      List.Disjoint (Form.mk title first).topNames (Form.mk title later).topNames) ∧
    ∀ doc, (Form.mk title (first ++ later)).compile options = .ok doc →
      ∃ doc₁ doc₂, (Form.mk title first).compile options = .ok doc₁ ∧
        (Form.mk title later).compile options = .ok doc₂ ∧ Document.IsComposed doc₁ doc₂ doc := by
  have hParts : (∃ doc, (Form.mk title (first ++ later)).compile options = .ok doc) ↔
      (∃ doc, (Form.mk title first).compile options = .ok doc) ∧
      (∃ doc, (Form.mk title later).compile options = .ok doc) ∧
      List.Disjoint (Form.mk title first).topNames (Form.mk title later).topNames := by
    simp only [exists_compile_eq_ok_iff, forall_scopes_append_iff]
    tauto
  refine ⟨hParts, fun doc hDoc => ?_⟩
  obtain ⟨⟨doc₁, hFirst⟩, ⟨doc₂, hLater⟩, -⟩ := hParts.1 ⟨doc, hDoc⟩
  refine ⟨doc₁, doc₂, hFirst, hLater, ?_⟩
  -- past the checks, compiling is a total function of the form
  obtain ⟨-, -, rfl⟩ := compile_eq_ok_iff.1 hDoc
  obtain ⟨-, -, rfl⟩ := compile_eq_ok_iff.1 hFirst
  obtain ⟨-, -, rfl⟩ := compile_eq_ok_iff.1 hLater
  have hDocument : (Form.mk title (first ++ later)).documentWith Xml.escape options =
      ((Form.mk title first).fragment Xml.escape options ++
        (Form.mk title later).fragment Xml.escape options).document Xml.escape title options :=
    congrArg (fun f => Fragment.document Xml.escape f title options)
      (Control.fragments_append Xml.escape options.bodyRefs _ first later)
  rw [hDocument]
  exact Fragment.isComposed_document Xml.escape _ _ title options
    (fun _ => Document.name_of_mem_binds Xml.escape _ options)
    (fun _ => Document.name_of_mem_binds Xml.escape _ options)

/-- Controls of a first half: a branch whose question stands in the top-level scope, and a group. -/
def eastControls : List Control := [
  .branch none [⟨["a = 1"], [
    .question { Field.named "x" with label := some (.ofList [("en", "X")]) } .date]⟩],
  .group "g" none [.question (Field.named "y") .location]]

/-- Controls of a second half, which use the names of the first one inside a group of their own. -/
def westControls : List Control := [
  .group "h" (some (.ofList [("en", "H")])) [
    .question { Field.named "x" with relevance := some "b = 2" } .date,
    .group "g" none []],
  .question (Field.named "y") (.text none)]

theorem compile_append_halves :
    let document controls := (Form.mk "Halves" controls).documentWith Xml.escape .default
    (∃ doc, (Form.mk "Halves" (eastControls ++ westControls)).compile .default = .ok doc) ∧
      Document.IsComposed (document eastControls) (document westControls)
        (document (eastControls ++ westControls)) ∧
      (Document.binds (document (eastControls ++ westControls))).map
          (fun node => (node.attrs.get? "nodeset", node.attrs.get? "relevant")) =
        [(some "/data/x", some "(a = 1)"), (some "/data/g/y", none),
          (some "/data/h/x", some "(b = 2)"), (some "/data/y", none)] := by
  intro document
  have hEast : (Form.mk "Halves" eastControls).compile .default = .ok (document eastControls) := rfl
  have hWest : (Form.mk "Halves" westControls).compile .default = .ok (document westControls) := rfl
  have hApart : List.Disjoint (Form.mk "Halves" eastControls).topNames
      (Form.mk "Halves" westControls).topNames := List.disjoint_of_nodup_append (by decide)
  obtain ⟨hParts, hComposed⟩ := compile_append "Halves" .default eastControls westControls
  obtain ⟨doc, hDoc⟩ := hParts.2 ⟨⟨_, hEast⟩, ⟨_, hWest⟩, hApart⟩
  obtain ⟨doc₁, doc₂, hFirst, hLater, hIs⟩ := hComposed doc hDoc
  obtain rfl := Except.ok.inj (hEast.symm.trans hFirst)
  obtain rfl := Except.ok.inj (hWest.symm.trans hLater)
  obtain ⟨-, -, rfl⟩ := compile_eq_ok_iff.1 hDoc
  exact ⟨⟨_, hDoc⟩, hIs, rfl⟩

end FormDesign
