import FormDesign.Proofs.Outcome
import FormDesign.Proofs.Outline
import FormDesign.Proofs.Text.Names
import Mathlib.Data.List.Nodup
import Mathlib.Tactic.Tauto

/-!
# Well-formed outlines

What the check of a form establishes, stated without the walk that establishes it: every member
of a scope has a name that an element may have, no later member of the scope has the same name,
and no minimum is above its maximum.

## Main definitions

* `Outline.WellFormed`;
* `Outline.paths`: the names that lead to each member, those inside groups included.

## Main results

* `exists_check_eq_ok_iff`: the check of an outline succeeds exactly when the outline is
  well-formed and none of its names is taken;
* `compile_eq_ok_iff`: a form compiles exactly when the options pass their check and its outline
  is well-formed;
* `nodup_paths`: no two members are reached by the same names.
-/

namespace FormDesign

/-- A check of a name succeeds exactly when the name is proper and not taken. -/
theorem checkName_eq_ok_iff {path : String} {taken : List String} {kind : Kind} {name : String} :
    checkName path taken kind name = .ok () ↔ Text.isName name = true ∧ name ∉ taken := by
  by_cases hName : Text.isName name = true
  · -- the test for blank names comes first, and no proper name is blank
    have hBlank := Text.not_isBlank_of_isName hName
    by_cases hTaken : name ∈ taken <;> simp [checkName, hName, hBlank, hTaken]
  · by_cases hBlank : Text.isBlank name = true <;> simp [checkName, hName, hBlank]

/-- Whether a minimum is not above its maximum. Bounds that are not given are in order. -/
def InOrder (bounds : Option Bounds) : Prop :=
  ∀ b ∈ bounds, ¬ b.min > b.max

theorem checkBounds_eq_ok_iff {path : String} {bounds : Option Bounds} :
    checkBounds path bounds = .ok () ↔ InOrder bounds := by
  cases bounds with
  | none => simp [checkBounds, InOrder]
  | some b => simp [checkBounds, InOrder]

namespace Outline

/-- The names of the members of the scope, in order. -/
def names : Outline → List String
  | done => []
  | question _ field _ rest => field.name :: rest.names
  | group name _ _ rest => name :: rest.names

/-- Every member has a proper name that no later member of its scope has, and bounds are in
order. -/
def WellFormed : Outline → Prop
  | done => True
  | question _ field input rest =>
    Text.isName field.name = true ∧ field.name ∉ rest.names ∧ InOrder input.bounds? ∧
      rest.WellFormed
  | group name _ inside rest =>
    Text.isName name = true ∧ name ∉ rest.names ∧ inside.WellFormed ∧ rest.WellFormed

/-- A name is new, and later names are still free once it is taken, exactly when it differs from
the later names and all of them are free. -/
theorem free_cons_iff {name : String} {later taken : List String} :
    (name ∉ taken ∧ ∀ n ∈ later, n ∉ name :: taken) ↔
      name ∉ later ∧ ∀ n ∈ name :: later, n ∉ taken := by
  simp only [List.mem_cons, not_or, forall_eq_or_imp]
  constructor
  · rintro ⟨hNew, hFree⟩
    exact ⟨fun hMem => (hFree name hMem).1 rfl, hNew, fun n hn => (hFree n hn).2⟩
  · rintro ⟨hLater, hNew, hFree⟩
    exact ⟨hNew, fun n hn => ⟨fun hEq => hLater (hEq ▸ hn), hFree n hn⟩⟩

/-- The check of an outline succeeds exactly when the outline is well-formed and none of its
names is taken. -/
theorem exists_check_eq_ok_iff {path : String} {taken : List String} {o : Outline} :
    (∃ after, o.check path taken = .ok after) ↔
      o.WellFormed ∧ ∀ name ∈ o.names, name ∉ taken := by
  -- The rest of a scope sees one more name taken: that of the member before it.
  induction o generalizing path taken with
  | done => simp [check, WellFormed, names]
  | question conditions field input rest ih =>
    have step : (∃ after, (question conditions field input rest).check path taken = .ok after) ↔
        (Text.isName field.name = true ∧ field.name ∉ taken) ∧ InOrder input.bounds? ∧
          ∃ after, rest.check path (field.name :: taken) = .ok after := by
      simp only [check, bind_eq_ok_iff]
      constructor
      · rintro ⟨after, _, hName, _, hBounds, h⟩
        exact ⟨checkName_eq_ok_iff.1 hName, checkBounds_eq_ok_iff.1 hBounds, after, h⟩
      · rintro ⟨hName, hBounds, after, h⟩
        exact ⟨after, (), checkName_eq_ok_iff.2 hName, (), checkBounds_eq_ok_iff.2 hBounds, h⟩
    have free := @free_cons_iff field.name rest.names taken
    -- what is left is which of the three conditions is said of which of the names
    rw [step, ih, WellFormed, names]
    tauto
  | group name label inside rest ihInside ihRest =>
    have step : (∃ after, (group name label inside rest).check path taken = .ok after) ↔
        (Text.isName name = true ∧ name ∉ taken) ∧
          (∃ after, inside.check s!"{path}/{name}" [] = .ok after) ∧
          ∃ after, rest.check path (name :: taken) = .ok after := by
      simp only [check, bind_eq_ok_iff]
      constructor
      · rintro ⟨after, _, hName, within, hInside, h⟩
        exact ⟨checkName_eq_ok_iff.1 hName, ⟨within, hInside⟩, after, h⟩
      · rintro ⟨hName, ⟨within, hInside⟩, after, h⟩
        exact ⟨after, (), checkName_eq_ok_iff.2 hName, within, hInside, h⟩
    have free := @free_cons_iff name rest.names taken
    rw [step, ihInside, ihRest, WellFormed, names]
    simp only [List.not_mem_nil, not_false_eq_true, implies_true, and_true]
    tauto

/-! ## Names that lead to members -/

/-- The names that lead to each member, in order, and those that lead to the members of a group
behind those of the group. -/
def paths : Outline → List (List String)
  | done => []
  | question _ field _ rest => [field.name] :: rest.paths
  | group name _ inside rest => [name] :: (inside.paths.map (name :: ·) ++ rest.paths)

variable {o : Outline}

/-- The first name on the way to a member is that of a member of the scope. -/
theorem exists_head_of_mem_paths {path : List String} (h : path ∈ o.paths) :
    ∃ name ∈ o.names, ∃ names, path = name :: names := by
  induction o generalizing path with
  | done => exact absurd h List.not_mem_nil
  | question conditions field input rest ih =>
    rcases List.mem_cons.1 h with rfl | h
    · exact ⟨field.name, List.mem_cons_self .., [], rfl⟩
    · obtain ⟨name, hName, names, hNames⟩ := ih h
      exact ⟨name, List.mem_cons_of_mem _ hName, names, hNames⟩
  | group name label inside rest ihInside ihRest =>
    rcases List.mem_cons.1 h with rfl | h
    · exact ⟨name, List.mem_cons_self .., [], rfl⟩
    · rcases List.mem_append.1 h with h | h
      · obtain ⟨names, -, rfl⟩ := List.mem_map.1 h
        exact ⟨name, List.mem_cons_self .., names, rfl⟩
      · obtain ⟨other, hOther, names, hNames⟩ := ihRest h
        exact ⟨other, List.mem_cons_of_mem _ hOther, names, hNames⟩

/-- All names on the way to a member are proper names. -/
theorem isName_of_mem_paths (hWell : o.WellFormed) :
    ∀ path ∈ o.paths, ∀ name ∈ path, Text.isName name = true := by
  induction o with
  | done => exact fun path h => absurd h List.not_mem_nil
  | question conditions field input rest ih =>
    obtain ⟨hName, -, -, hRest⟩ := hWell
    exact List.forall_mem_cons.2 ⟨List.forall_mem_singleton.2 hName, ih hRest⟩
  | group name label inside rest ihInside ihRest =>
    obtain ⟨hName, -, hInside, hRest⟩ := hWell
    refine List.forall_mem_cons.2 ⟨List.forall_mem_singleton.2 hName, ?_⟩
    refine List.forall_mem_append.2 ⟨List.forall_mem_map.2 fun names hNames => ?_, ihRest hRest⟩
    exact List.forall_mem_cons.2 ⟨hName, ihInside hInside names hNames⟩

/-- A name that no member of a scope has does not lead to any of them. -/
theorem not_mem_paths_of_not_mem_names {name : String} (h : name ∉ o.names)
    (names : List String) : name :: names ∉ o.paths := by
  intro hMem
  obtain ⟨head, hHead, others, hEq⟩ := exists_head_of_mem_paths hMem
  exact h ((List.cons.inj hEq).1 ▸ hHead)

/-- No two members are reached by the same names. -/
theorem nodup_paths (hWell : o.WellFormed) : o.paths.Nodup := by
  induction o with
  | done => exact List.nodup_nil
  | question conditions field input rest ih =>
    obtain ⟨-, hLater, -, hRest⟩ := hWell
    exact List.nodup_cons.2 ⟨not_mem_paths_of_not_mem_names hLater [], ih hRest⟩
  | group name label inside rest ihInside ihRest =>
    obtain ⟨-, hLater, hInside, hRest⟩ := hWell
    refine List.nodup_cons.2 ⟨?_, List.Nodup.append ?_ (ihRest hRest) ?_⟩
    · -- The names that lead inside a group are more than that of the group alone.
      rw [List.mem_append, not_or]
      refine ⟨fun hMem => ?_, not_mem_paths_of_not_mem_names hLater []⟩
      obtain ⟨names, hNames, hEq⟩ := List.mem_map.1 hMem
      obtain ⟨head, -, others, rfl⟩ := exists_head_of_mem_paths hNames
      exact absurd (List.cons.inj hEq).2 (List.cons_ne_nil _ _)
    · exact (ihInside hInside).map List.cons_injective
    · -- a path into the group begins with its name, and no later path does
      intro path hPath hOther
      obtain ⟨names, -, rfl⟩ := List.mem_map.1 hPath
      exact not_mem_paths_of_not_mem_names hLater names hOther

end Outline

/-- A form passes its check exactly when its outline is well-formed. -/
theorem check_eq_ok_iff {form : Form} : form.check = .ok () ↔ form.outline.WellFormed := by
  have h := @Outline.exists_check_eq_ok_iff "" [] form.outline
  simp only [List.not_mem_nil, not_false_eq_true, implies_true, and_true] at h
  rw [check_outline, bind_eq_ok_iff, ← h]
  simp [pure, Except.pure]

/-- What the options must be to pass their check, as far as the root is concerned. -/
theorem isName_instanceRoot {options : Options} (h : options.check = .ok ()) :
    Text.isName options.instanceRoot = true := by
  unfold Options.check at h
  split at h
  · cases h
  · split at h
    · cases h
    · split at h
      · assumption
      · cases h

/-- A form that compiles has passed both checks, and its document is made of escaped texts. -/
theorem compile_eq_ok_iff {form : Form} {options : Options} {doc : Xml.Node} :
    form.compile options = .ok doc ↔
      options.check = .ok () ∧ form.outline.WellFormed ∧
        form.documentWith Xml.escape options = doc := by
  rw [Form.compile]
  simp only [bind_eq_ok_iff, ← check_eq_ok_iff]
  constructor
  · rintro ⟨_, hOptions, _, hForm, h⟩
    exact ⟨hOptions, hForm, by simpa [pure, Except.pure] using h⟩
  · rintro ⟨hOptions, hForm, rfl⟩
    exact ⟨(), hOptions, (), hForm, rfl⟩

end FormDesign
