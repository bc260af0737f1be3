import FormDesign.Document.Scope
import FormDesign.Proofs.Text.Names
import FormDesign.Text.Segments
import Mathlib.Data.List.Basic

/-!
# Paths

The path of a control is made of the names from the instance root down to the control, each
behind a slash. Names hold no slash, so a path can be taken apart again, and different names have
different paths.

## Main definitions

* `pathOf`: the absolute path of a list of names;
* `Scope.inside`: the scope inside groups, the outermost first.

## Main results

* `path_inside`, `below_inside`: the paths of a scope inside groups;
* `segments_pathOf`: taking a path apart at its slashes;
* `pathOf_injective`: different names have different paths.
-/

namespace FormDesign

/-- The absolute path of a list of names. -/
def pathOf (names : List String) : String :=
  String.join (names.map fun name => "/" ++ name)

/-- A path begins with a slash and its first name. -/
@[simp]
theorem pathOf_cons (name : String) (names : List String) :
    pathOf (name :: names) = "/" ++ name ++ pathOf names := by
  simp [pathOf]

@[simp]
theorem pathOf_nil : pathOf [] = "" := rfl

/-- A name behind others stands behind their path, and a slash. -/
theorem pathOf_concat (names : List String) (name : String) :
    pathOf (names ++ [name]) = pathOf names ++ "/" ++ name := by
  simp [pathOf, String.append_assoc]

namespace Scope

@[simp]
theorem path_top (root : String) : (top root).path = "/" ++ root ++ "/" := rfl

@[simp]
theorem below_top (root : String) : (top root).below = "" := rfl

@[simp]
theorem path_group (scope : Scope) (name : String) :
    (scope.group name).path = scope.path ++ name ++ "/" := rfl

@[simp]
theorem below_group (scope : Scope) (name : String) :
    (scope.group name).below = scope.below ++ name ++ "/" := rfl

/-- The scope inside groups, the outermost first. -/
def inside (scope : Scope) (groups : List String) : Scope :=
  groups.foldl group scope

/-- A name inside groups stands behind theirs in its absolute path. -/
theorem path_inside {scope : Scope} {before : String} (h : scope.path = before ++ "/")
    (groups : List String) (name : String) :
    (scope.inside groups).path ++ name = before ++ pathOf (groups ++ [name]) := by
  induction groups generalizing scope before with
  | nil => simp [inside, h, String.append_assoc]
  | cons g groups ih =>
    -- the path of the scope inside the first group is what stands before the others
    have hGroup : (scope.group g).path = before ++ "/" ++ g ++ "/" := by rw [path_group, h]
    have hInside : scope.inside (g :: groups) = (scope.group g).inside groups := rfl
    rw [hInside, ih hGroup, List.cons_append, pathOf_cons]
    simp only [String.append_assoc]

/-- A name inside groups stands behind theirs in its path below the instance root. -/
theorem below_inside {scope : Scope} {before : String} (h : "/" ++ scope.below = before ++ "/")
    (groups : List String) (name : String) :
    "/" ++ ((scope.inside groups).below ++ name) = before ++ pathOf (groups ++ [name]) := by
  induction groups generalizing scope before with
  | nil =>
    rw [← String.append_assoc, inside, List.foldl_nil, h]
    simp [String.append_assoc]
  | cons g groups ih =>
    have hGroup : "/" ++ (scope.group g).below = before ++ "/" ++ g ++ "/" := by
      rw [below_group, ← String.append_assoc, ← String.append_assoc, h]
    have hInside : scope.inside (g :: groups) = (scope.group g).inside groups := rfl
    rw [hInside, ih hGroup, List.cons_append, pathOf_cons]
    simp only [String.append_assoc]

/-- The path of what stands in groups names the root, the groups and then the thing itself. -/
theorem path_inside_top (root : String) (groups : List String) (name : String) :
    ((top root).inside groups).path ++ name = pathOf (root :: (groups ++ [name])) := by
  rw [path_inside (path_top root), pathOf_cons]

/-- Below the root, the path of what stands in groups leaves the root out. -/
theorem below_inside_top (root : String) (groups : List String) (name : String) :
    "/" ++ (((top root).inside groups).below ++ name) = pathOf (groups ++ [name]) := by
  have hTop : "/" ++ (top root).below = "" ++ "/" := rfl
  rw [below_inside hTop, String.empty_append]

end Scope

/-! ## Taking paths apart -/

namespace Text

/-- Without a separator there is one segment. -/
theorem segmentsOf_of_not_mem {separator : Char} {cs : List Char} (h : separator ∉ cs) :
    segmentsOf separator cs = [cs] := by
  induction cs with
  | nil => rfl
  | cons c cs ih =>
    rw [List.mem_cons, not_or] at h
    rw [segmentsOf, if_neg (Ne.symm h.1), ih h.2]

/-- What stands before the first separator is the first segment. -/
theorem segmentsOf_append {separator : Char} {cs : List Char} (h : separator ∉ cs)
    (rest : List Char) :
    segmentsOf separator (cs ++ separator :: rest) = cs :: segmentsOf separator rest := by
  induction cs with
  | nil => rw [List.nil_append, segmentsOf, if_pos rfl]
  | cons c cs ih =>
    rw [List.mem_cons, not_or] at h
    rw [List.cons_append, segmentsOf, if_neg (Ne.symm h.1), ih h.2]

/-- Behind a separator every name is a segment of its own. -/
theorem segmentsOf_flatMap {separator : Char} {cs : List Char} (h : separator ∉ cs)
    {names : List String} (hNames : ∀ name ∈ names, separator ∉ name.toList) :
    segmentsOf separator (cs ++ names.flatMap fun name => separator :: name.toList) =
      cs :: names.map String.toList := by
  induction names generalizing cs with
  | nil => rw [List.flatMap_nil, List.append_nil, segmentsOf_of_not_mem h, List.map_nil]
  | cons name names ih =>
    obtain ⟨hName, hRest⟩ := List.forall_mem_cons.1 hNames
    rw [List.flatMap_cons, List.cons_append, segmentsOf_append h, ih hName hRest, List.map_cons]

end Text

/-- The characters of a path: a slash before those of each name. -/
theorem toList_pathOf (names : List String) :
    (pathOf names).toList = names.flatMap fun name => '/' :: name.toList := by
  rw [pathOf, String.toList_join, List.flatMap_map]
  simp only [String.toList_append]
  rfl

/-- Taking a path apart at its slashes gives an empty segment and then the names. -/
theorem segments_pathOf {names : List String} (h : ∀ name ∈ names, '/' ∉ name.toList) :
    Text.segments '/' (pathOf names) = "" :: names := by
  have hEmpty : '/' ∉ ([] : List Char) := List.not_mem_nil
  have hSegments := Text.segmentsOf_flatMap hEmpty h
  rw [List.nil_append] at hSegments
  rw [Text.segments, toList_pathOf, hSegments, List.map_cons, List.map_map]
  simp [Function.comp_def]

/-- Different names have different paths. -/
theorem pathOf_injective {a b : List String} (ha : ∀ name ∈ a, '/' ∉ name.toList)
    (hb : ∀ name ∈ b, '/' ∉ name.toList) (h : pathOf a = pathOf b) : a = b := by
  have hSegments := segments_pathOf ha
  rw [h, segments_pathOf hb, List.cons.injEq] at hSegments
  exact hSegments.2.symm

end FormDesign
