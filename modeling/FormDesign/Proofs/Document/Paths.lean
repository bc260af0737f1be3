import FormDesign.Proofs.Document.Parts
import FormDesign.Proofs.Xml.Places

/-!
# Paths in documents

A question without a destination of its own is bound to the path that follows from the names
around it. That path leads from the instance to the very element that the question has put there:
no sibling has the same name, not even one from another arm of the same branch, so the first child
of a name is the only one. Different questions have different paths, so no two of them share a
bind or a reference of the body.

## Main definitions

* `LeadsTo`: a bind leads to the element of a site in the instance;
* `Form.withoutDestination`: the elements that belong to sites without a destination.

## Main results

* `emptyPlacesAll_inst`, `reaches_of_mem_sites`: where the elements of sites stand, and that their
  names lead there;
* `compile_paths_resolve`: every path that follows from names leads to the element of its site.
-/

namespace FormDesign

open Xml (Node)

/-! ## The instance -/

/-- The names of a site lead from an element to the place of the site, and the empty element of
the question stands there. -/
structure Site.Reaches (s : Site) (node : Node) : Prop where
  place? : node.place? s.names = some s.place
  at? : node.at? s.place = some (.empty s.field.name .empty)

namespace Site.Reaches

variable {s : Site} {node first : Node} {others : List Node}

/-- A site in a group is reached through the first member of the scope around it. -/
theorem inGroup (h : s.Reaches first) (hChildren : node.children = first :: others) {name : String}
    (hName : first.name = name) : (s.inGroup name).Reaches node where
  place? := by
    rw [names_inGroup, Node.place?_cons_of_eq hChildren hName, h.place?]
    rfl
  at? := by
    rw [Site.inGroup, Node.at?, hChildren]
    exact h.at?

/-- A site behind the first member of a scope is reached past it, if their names differ. -/
theorem next (h : s.Reaches (.parent "" .empty others))
    (hChildren : node.children = first :: others)
    {name : String} {path : List String} (hNames : s.names = name :: path)
    (hName : first.name ≠ name) : s.next.Reaches node := by
  have hPlace := h.place?
  rw [hNames] at hPlace
  -- The place of a site is never empty, so there is a position that the first member shifts.
  obtain ⟨i, place, hCons⟩ : ∃ i place, s.place = i :: place := by
    cases hEq : s.place with
    | cons i place => exact ⟨i, place, rfl⟩
    | nil =>
      have hAt := h.at?
      rw [hEq] at hAt
      cases hAt
  have hAt := h.at?
  rw [hCons, Node.at?] at hAt
  refine ⟨?_, ?_⟩
  · rw [names_next, hNames, Node.place?_cons_of_ne hChildren hName, hPlace]
    rfl
  · rw [Site.next, hCons, List.modifyHead_cons, Node.at?, hChildren, List.getElem?_cons_succ]
    exact hAt

end Site.Reaches

namespace Outline

variable (quote : String → String) (refs : BodyRefs)

/-- Each site has put one empty element into the instance, in order. -/
theorem emptyPlacesAll_inst (scope : Scope) (o : Outline) :
    Node.emptyPlacesAll (o.fragment quote refs scope).inst = o.sites.map Site.place := by
  induction o generalizing scope with
  | done => rw [fragment, Fragment.inst_empty, Node.emptyPlacesAll, sites, List.map_nil]
  | question conditions field input rest ih =>
    rw [fragment, Fragment.inst_append, Field.fragment, List.singleton_append,
      Node.emptyPlacesAll, Node.emptyPlaces, ih]
    simp only [sites, List.map_cons, List.map_nil, List.map_map]
    rfl
  | group name label inside rest ihInside ihRest =>
    rw [fragment, Fragment.inst_append, Fragment.group, List.singleton_append,
      Node.emptyPlacesAll, Node.emptyPlaces, ihInside, ihRest, sites, List.map_append,
      List.map_map, List.map_map, List.map_map, List.map_map]
    rfl

/-- Every site of a well-formed outline is reached from the element around its members. -/
theorem reaches_of_mem_sites {o : Outline} (hWell : o.WellFormed) {scope : Scope} {node : Node}
    (hChildren : node.children = (o.fragment quote refs scope).inst) :
    ∀ s ∈ o.sites, s.Reaches node := by
  -- later members of a scope have other names, so the way to a site among them passes the first
  have passes : ∀ {name : String} {rest : Outline} {t : Site}, name ∉ rest.names →
      t ∈ rest.sites → ∃ head path, t.names = head :: path ∧ name ≠ head := by
    intro name rest t hLater ht
    obtain ⟨head, hHead, path, hNames⟩ := exists_head_of_mem_paths (names_mem_paths ht)
    exact ⟨head, path, hNames, fun hEq => hLater (hEq ▸ hHead)⟩
  induction o generalizing scope node with
  | done => exact fun s hs => absurd hs List.not_mem_nil
  | question conditions field input rest ih =>
    obtain ⟨-, hLater, -, hRest⟩ := hWell
    rw [fragment, Fragment.inst_append, Field.fragment, List.singleton_append] at hChildren
    rw [sites, List.forall_mem_cons, List.forall_mem_map]
    refine ⟨⟨?_, ?_⟩, fun t ht => ?_⟩
    · exact Node.place?_cons_of_eq hChildren rfl []
    · rw [Node.at?, hChildren]
      rfl
    · obtain ⟨head, path, hNames, hName⟩ := passes hLater ht
      exact (ih hRest rfl t ht).next hChildren hNames hName
  | group name label inside rest ihInside ihRest =>
    obtain ⟨-, hLater, hInside, hRest⟩ := hWell
    rw [fragment, Fragment.inst_append, Fragment.group, List.singleton_append] at hChildren
    rw [sites, List.forall_mem_append, List.forall_mem_map, List.forall_mem_map]
    refine ⟨fun t ht => ?_, fun t ht => ?_⟩
    · exact (ihInside hInside rfl t ht).inGroup hChildren rfl
    · obtain ⟨head, path, hNames, hName⟩ := passes hLater ht
      exact (ihRest hRest rfl t ht).next hChildren hNames hName

end Outline

/-! ## Binds and references -/

variable {form : Form} {options : Options}

/-- No name on the way to a site holds a slash. -/
theorem slash_not_mem_of_mem_sites (hWell : form.outline.WellFormed) {s : Site}
    (hs : s ∈ form.sites) : ∀ name ∈ s.names, '/' ∉ name.toList :=
  fun _ hName => Text.not_mem_of_isName
    (Outline.isName_of_mem_paths hWell s.names (Outline.names_mem_paths hs) _ hName) (by decide)

/-- Nor does the name of the root that stands before them in a path. -/
theorem slash_not_mem_of_mem_path (hWell : form.outline.WellFormed)
    (hRoot : Text.isName options.instanceRoot = true) {s : Site} (hs : s ∈ form.sites) :
    ∀ name ∈ options.instanceRoot :: s.names, '/' ∉ name.toList :=
  List.forall_mem_cons.2
    ⟨Text.not_mem_of_isName hRoot (by decide), slash_not_mem_of_mem_sites hWell hs⟩

/-- Questions that are bound to the same path stand at the same place. -/
theorem names_eq_of_nodeset_eq (hWell : form.outline.WellFormed)
    (hRoot : Text.isName options.instanceRoot = true) {quote : String → String} {s t : Site}
    (hs : s ∈ form.sites) (ht : t ∈ form.sites) (hsNone : s.field.destination = none)
    (htNone : t.field.destination = none)
    (h : s.field.nodeset quote (s.scope (.top options.instanceRoot)) =
      t.field.nodeset quote (t.scope (.top options.instanceRoot))) : s.names = t.names := by
  simp only [Field.nodeset, hsNone, htNone, Site.path_eq] at h
  have hNames := pathOf_injective (slash_not_mem_of_mem_path hWell hRoot hs)
    (slash_not_mem_of_mem_path hWell hRoot ht) h
  exact (List.cons.inj hNames).2

/-- Questions that the body refers to in the same way stand at the same place. -/
theorem names_eq_of_bodyRef_eq (hWell : form.outline.WellFormed)
    (hRoot : Text.isName options.instanceRoot = true) {quote : String → String} {refs : BodyRefs}
    {s t : Site} (hs : s ∈ form.sites) (ht : t ∈ form.sites)
    (hsNone : s.field.destination = none) (htNone : t.field.destination = none)
    (h : s.field.bodyRef quote refs (s.scope (.top options.instanceRoot)) =
      t.field.bodyRef quote refs (t.scope (.top options.instanceRoot))) : s.names = t.names := by
  cases refs with
  | absolute =>
    -- An absolute reference is the path that the bind names.
    refine @names_eq_of_nodeset_eq form options hWell hRoot quote s t hs ht hsNone htNone ?_
    simpa only [Field.bodyRef, Field.nodeset, hsNone, htNone] using h
  | relative =>
    -- A relative reference is the path below the root, but for the slash before it.
    simp only [Field.bodyRef, hsNone, htNone] at h
    refine pathOf_injective (slash_not_mem_of_mem_sites hWell hs)
      (slash_not_mem_of_mem_sites hWell ht) ?_
    have hBelow : ∀ u : Site, "/" ++ ((u.scope (.top options.instanceRoot)).below ++ u.field.name) =
        pathOf u.names := fun u => Scope.below_inside_top _ u.above u.field.name
    rw [← hBelow s, ← hBelow t, h]

/-! ## Documents -/

/-- Taking the path of a bind apart at its slashes gives an empty segment and then names that lead
from the instance to the place of a site, below the root, and to the element of its question. -/
def LeadsTo (inst : Node) (s : Site) (bind : Node) : Prop :=
  ∃ nodeset path, bind.attrs.get? "nodeset" = some nodeset ∧
    Text.segments '/' nodeset = "" :: path ∧
    inst.place? path = some (0 :: s.place) ∧
    inst.descend? path = some (.empty s.field.name .empty)

section

variable (quote : String → String) (form : Form) (options : Options)

/-- The empty elements of the instance are those of the sites, in order. -/
theorem emptyPlaces_instance :
    (Node.parent "instance" .empty
      [(form.fragment quote options).instanceRoot quote options]).emptyPlaces =
      form.sites.map fun s => 0 :: s.place := by
  have hRoot : ((form.fragment quote options).instanceRoot quote options).emptyPlaces =
      form.sites.map Site.place := by
    rw [Fragment.instanceRoot, Node.emptyPlaces_attr?, Node.emptyPlaces, fragment_outline]
    exact Outline.emptyPlacesAll_inst quote options.bodyRefs _ form.outline
  rw [Node.emptyPlaces, Node.emptyPlacesAll, Node.emptyPlacesAll, hRoot, List.map_nil,
    List.append_nil, List.map_map]
  rfl

/-- Every site is reached from the instance, through its root. -/
theorem reaches_instance (hWell : form.outline.WellFormed) {s : Site} (hs : s ∈ form.sites) :
    (s.inGroup options.instanceRoot).Reaches
      (.parent "instance" .empty [(form.fragment quote options).instanceRoot quote options]) := by
  have hChildren := Fragment.children_instanceRoot quote (form.fragment quote options) options
  have hName := Fragment.name_instanceRoot quote (form.fragment quote options) options
  rw [fragment_outline] at hChildren
  rw [fragment_outline] at hName ⊢
  exact (Outline.reaches_of_mem_sites _ _ hWell hChildren s hs).inGroup rfl hName

/-- The bind of a question without a destination leads to the element of the question. -/
theorem leadsTo_bind (hWell : form.outline.WellFormed)
    (hRoot : Text.isName options.instanceRoot = true) {s : Site} (hs : s ∈ form.sites)
    (hNone : s.field.destination = none) :
    LeadsTo (.parent "instance" .empty [(form.fragment quote options).instanceRoot quote options]) s
      (s.field.bind quote (s.scope (.top options.instanceRoot)) s.input) := by
  -- the names behind the root are the same in the path of the bind and on the way down
  have hReaches := reaches_instance quote form options hWell hs
  refine ⟨pathOf (options.instanceRoot :: s.names), options.instanceRoot :: s.names, ?_, ?_,
    hReaches.place?, ?_⟩
  · rw [Field.get?_nodeset_bind, Field.nodeset, hNone, Site.path_eq]
  · exact segments_pathOf (slash_not_mem_of_mem_path hWell hRoot hs)
  · have hPlace := hReaches.place?
    rw [Site.names_inGroup] at hPlace
    rw [Node.descend?_eq_bind_at?, hPlace]
    exact hReaches.at?

end

/-- The elements that belong to the sites without a destination, given one for each site. -/
def Form.withoutDestination (form : Form) (nodes : List Node) : List Node :=
  ((form.sites.zip nodes).filter fun pair => pair.1.field.destination = none).map Prod.snd

theorem withoutDestination_map_sites (f : Site → Node) :
    form.withoutDestination (form.sites.map f) =
      (form.sites.filter fun s => s.field.destination = none).map f := by
  rw [Form.withoutDestination, ← List.map_prod_left_eq_zip, List.filter_map, List.map_map]
  rfl

/-- Elements of sites differ in what only the names of a site determine. -/
theorem nodup_withoutDestination (hWell : form.outline.WellFormed) {α : Type} {key : Node → α}
    {f : Site → Node}
    (h : ∀ s ∈ form.sites, ∀ t ∈ form.sites, s.field.destination = none →
      t.field.destination = none → key (f s) = key (f t) → s.names = t.names) :
    ((form.withoutDestination (form.sites.map f)).map key).Nodup := by
  have hNames : form.sites.Pairwise fun s t => s.names ≠ t.names :=
    List.pairwise_map.1 (Outline.nodup_names_sites hWell)
  rw [withoutDestination_map_sites, List.map_map, List.Nodup, List.pairwise_map]
  refine (hNames.filter _).imp_of_mem fun {s t} hs ht hNe hKey => ?_
  obtain ⟨hsMem, hsNone⟩ := List.mem_filter.1 hs
  obtain ⟨htMem, htNone⟩ := List.mem_filter.1 ht
  exact hNe (h s hsMem t htMem (of_decide_eq_true hsNone) (of_decide_eq_true htNone) hKey)

/-- The sites of a form are its questions, in order, and the empty elements of the instance are
those of the sites. Every path that follows from names leads from the instance to the element that
its own question has put there, and no two questions are bound to the same path or referred to in
the same way. -/
theorem compile_paths_resolve {doc : Node} (h : form.compile options = .ok doc) :
    ∃ inst, Document.instance? doc = some inst ∧
      form.sites.map Site.question = form.questions ∧
      inst.emptyPlaces = form.sites.map (fun s => 0 :: s.place) ∧
      List.Forall₂ (fun s bind => s.field.destination = none → LeadsTo inst s bind)
        form.sites (Document.binds doc) ∧
      ((form.withoutDestination (Document.binds doc)).map (·.attrs.get? "nodeset")).Nodup ∧
      List.Forall₂ (fun s question => question.name = s.input.bodyTag)
        form.sites (Document.questions doc) ∧
      ((form.withoutDestination (Document.questions doc)).map (·.attrs.get? "ref")).Nodup := by
  obtain ⟨hOptions, hWell, rfl⟩ := compile_eq_ok_iff.1 h
  have hRoot := isName_instanceRoot hOptions
  refine ⟨_, Document.instance?_documentWith _ form options, map_question_sites form,
    emptyPlaces_instance _ form options, ?_, ?_, ?_, ?_⟩
  · rw [Document.binds_documentWith, List.forall₂_map_right_iff, List.forall₂_same]
    exact fun s hs hNone => leadsTo_bind _ form options hWell hRoot hs hNone
  · rw [Document.binds_documentWith]
    refine nodup_withoutDestination hWell fun s hs t ht hsNone htNone hEq => ?_
    rw [Field.get?_nodeset_bind, Field.get?_nodeset_bind] at hEq
    exact names_eq_of_nodeset_eq hWell hRoot hs ht hsNone htNone (Option.some.inj hEq)
  · rw [Document.questions_documentWith, List.forall₂_map_right_iff, List.forall₂_same]
    exact fun s _ => Field.name_bodyNode _ _ _ s.field s.input
  · rw [Document.questions_documentWith]
    refine nodup_withoutDestination hWell fun s hs t ht hsNone htNone hEq => ?_
    rw [Field.get?_ref_bodyNode, Field.get?_ref_bodyNode] at hEq
    exact names_eq_of_bodyRef_eq hWell hRoot hs ht hsNone htNone (Option.some.inj hEq)

/-- Two arms inside a group, and a question outside that has the name of one inside. -/
def nestedForm : Form where
  title := "Nested"
  controls := [
    .group "household" none [
      .branch none [
        ⟨["a = 1"], [.question (Field.named "age") (.numeric .integer none)]⟩,
        ⟨["a = 2"], [.question (Field.named "sex") (.selectOne [])]⟩]],
    .question (Field.named "age") .date]

theorem nestedForm_paths_resolve :
    nestedForm.compile Options.default = .ok (nestedForm.documentWith Xml.escape .default) ∧
      ∃ inst, Document.instance? (nestedForm.documentWith Xml.escape .default) = some inst ∧
        inst.emptyPlaces = [[0, 0, 0], [0, 0, 1], [0, 1]] ∧
        List.Forall₂ (fun s bind => s.field.destination = none → LeadsTo inst s bind)
          nestedForm.sites (Document.binds (nestedForm.documentWith Xml.escape .default)) := by
  have hCompile : nestedForm.compile Options.default =
      .ok (nestedForm.documentWith Xml.escape .default) := rfl
  obtain ⟨inst, hInst, -, hPlaces, hBinds, -⟩ := compile_paths_resolve hCompile
  have hSites : nestedForm.sites.map (fun s => 0 :: s.place) = [[0, 0, 0], [0, 0, 1], [0, 1]] := by
    decide
  exact ⟨hCompile, inst, hInst, hPlaces.trans hSites, hBinds⟩

end FormDesign
