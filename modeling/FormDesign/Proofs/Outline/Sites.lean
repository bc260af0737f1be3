import FormDesign.Proofs.Document.Scope
import FormDesign.Proofs.Outline.WellFormed

/-!
# Sites

A site is a question together with where it stands: the names of the groups around it, the
conditions of the arms around it, and its place, which counts the members before it in its own
scope and in those around. The sites of an outline are its questions in the order of the form.

## Main definitions

* `Site`, `Outline.sites`, `Form.sites`.

## Main results

* `map_question_sites`: the sites of a form are its questions, in order;
* `binds_eq_map_sites`: one bind for each site, in order;
* `names_mem_paths`, `nodup_names_sites`: what is known of the names that lead to sites.
-/

namespace FormDesign

/-- A question and where it stands. -/
structure Site where
  /-- The names of the groups around the question, the outermost first. -/
  above : List String
  /-- How many members stand before each of these groups, and before the question, in its scope. -/
  place : List Nat
  /-- The conditions of the arms around the question, the outermost first. -/
  conditions : List String
  field : Field
  input : Input

namespace Site

/-- The site as it is seen from outside a group that is the first member of its scope. -/
def inGroup (name : String) (s : Site) : Site :=
  { s with above := name :: s.above, place := 0 :: s.place }

/-- The site with one more member before it. -/
def next (s : Site) : Site :=
  { s with place := s.place.modifyHead (· + 1) }

/-- The names that lead to the question. -/
def names (s : Site) : List String :=
  s.above ++ [s.field.name]

/-- The scope of the question. -/
def scope (outer : Scope) (s : Site) : Scope :=
  { outer.inside s.above with conditions := s.conditions }

@[simp]
theorem names_inGroup (name : String) (s : Site) : (s.inGroup name).names = name :: s.names := rfl

@[simp]
theorem names_next (s : Site) : s.next.names = s.names := rfl

/-- The path of a question is made of the root and of the names that lead to it. -/
theorem path_eq (root : String) (s : Site) :
    s.field.path (s.scope (.top root)) = pathOf (root :: s.names) :=
  Scope.path_inside_top root s.above s.field.name

end Site

namespace Outline

/-- The questions of an outline and where they stand, in order. -/
def sites : Outline → List Site
  | done => []
  | question conditions field input rest =>
    ⟨[], [0], conditions, field, input⟩ :: rest.sites.map Site.next
  | group name _ inside rest => inside.sites.map (Site.inGroup name) ++ rest.sites.map Site.next

/-- There is one bind for each site, in order. -/
theorem binds_eq_map_sites (quote : String → String) (refs : BodyRefs) (scope : Scope)
    (o : Outline) :
    (o.fragment quote refs scope).binds =
      o.sites.map fun s => s.field.bind quote (s.scope scope) s.input := by
  induction o generalizing scope with
  | done => rfl
  | question conditions field input rest ih =>
    rw [fragment, Fragment.binds_append, ih, sites, List.map_cons, List.map_map]
    rfl
  | group name label inside rest ihInside ihRest =>
    -- a site inside the group has the scope of the group around it
    rw [fragment, Fragment.binds_append, ihRest, sites, List.map_append, List.map_map,
      List.map_map]
    exact congrArg (· ++ _) (ihInside (scope.group name))

/-! ## Names that lead to sites -/

/-- A question has a site before those of what follows it. -/
theorem map_names_sites_question (conditions : List String) (field : Field) (input : Input)
    (rest : Outline) :
    (question conditions field input rest).sites.map Site.names =
      [field.name] :: rest.sites.map Site.names := by
  rw [sites, List.map_cons, List.map_map]
  rfl

/-- The sites in a group are behind its name, and before those of what follows it. -/
theorem map_names_sites_group (name : String) (label : Option LocalizedText)
    (inside rest : Outline) :
    (group name label inside rest).sites.map Site.names =
      (inside.sites.map Site.names).map (name :: ·) ++ rest.sites.map Site.names := by
  rw [sites, List.map_append, List.map_map, List.map_map, List.map_map]
  rfl

/-- The names that lead to sites are among those that lead to members. -/
theorem sublist_paths (o : Outline) : (o.sites.map Site.names).Sublist o.paths := by
  induction o with
  | done => exact .slnil
  | question conditions field input rest ih =>
    rw [map_names_sites_question]
    exact ih.cons_cons _
  | group name label inside rest ihInside ihRest =>
    rw [map_names_sites_group]
    exact ((ihInside.map _).append ihRest).cons _

variable {o : Outline} {s : Site}

/-- The names of a site are a path of the outline. -/
theorem names_mem_paths (hs : s ∈ o.sites) : s.names ∈ o.paths :=
  (sublist_paths o).subset (List.mem_map_of_mem hs)

/-- No two questions are reached by the same names. -/
theorem nodup_names_sites (hWell : o.WellFormed) : (o.sites.map Site.names).Nodup :=
  (nodup_paths hWell).sublist (sublist_paths o)

end Outline

/-- The questions of a form and where they stand, in order. -/
def Form.sites (form : Form) : List Site :=
  form.outline.sites

/-! ## Questions of forms -/

/-- The questions of a form, in order. -/
def Form.questions (form : Form) : List (Field × Input) :=
  form.gather (fun field input => [(field, input)]) (fun _ _ => [])

/-- The question that a site is. -/
def Site.question (s : Site) : Field × Input :=
  (s.field, s.input)

/-- The sites have the questions of the outline, in order. -/
theorem Outline.map_question_sites_eq_gather (o : Outline) :
    o.sites.map Site.question =
      o.gather (fun field input => [(field, input)]) (fun _ _ => []) := by
  induction o with
  | done => rfl
  | question conditions field input rest ih =>
    rw [gather, ← ih, sites, List.map_cons, List.map_map]
    rfl
  | group name label inside rest ihInside ihRest =>
    rw [gather, ← ihInside, ← ihRest, sites, List.map_append, List.map_map, List.map_map]
    rfl

/-- The sites of a form are its questions, in order. -/
theorem map_question_sites (form : Form) : form.sites.map Site.question = form.questions := by
  rw [Form.sites, Outline.map_question_sites_eq_gather, gather_outline, Form.questions]

end FormDesign
