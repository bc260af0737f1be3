import FormDesign.Proofs.Document.Scope
import FormDesign.Proofs.Outline.Flatten
import FormDesign.Proofs.Outline.WellFormed

/-!
# The first fault of a form

The check of a form takes the members of its scopes one by one, in the order of the text: a group
before what is inside it, and that before the next member. It carries the names that are taken and
answers the first fault that it meets. Here a fault is stated for a member and the earlier members
of its scope alone, without the walk, and the check is shown to answer the fault of the first
member that has one.

Scopes and members are those of the flattened form: the arms of a branch have no scope of their
own, so that positions and taken names run on from one arm to the next.

## Main definitions

* `Form.scopes`, `IsSound`: the scopes of a form, and what a form that passes its check has in each;
* `Form.members`: the members of the scopes with the earlier members of each, in order;
* `Member.Fault`: what may be wrong with a member, the first of its faults.

## Main results

* `Outline.wellFormed_iff_scopes`: an outline is well-formed exactly when its scopes are sound;
* `check_eq_forM_members`: the check of a form is that of its members, one after another;
* `Member.check_eq_error_iff`: the check of a member answers its fault;
* `check_reports_first_fault`: a form passes exactly when its scopes are sound, and fails with the
  fault of the first faulty member.
-/

namespace FormDesign

namespace Control

/-- The name of a control, empty if it has none. -/
def ownName (control : Control) : String :=
  control.name?.getD ""

/-- The length of a text or the range of a number, if it is bounded. -/
def bounds? : Control → Option Bounds
  | question _ (.text length) => length
  | question _ (.numeric _ range) => range
  | _ => none

mutual

/-- The scopes that a control opens: the inside of a group, and those opened there. -/
def scopes : Control → List (List Control)
  | group _ _ children => children :: scopesAll children
  | branch _ _ | question _ _ => []

/-- The scopes that controls open, one control after another. -/
def scopesAll : List Control → List (List Control)
  | [] => []
  | control :: controls => scopes control ++ scopesAll controls

end

end Control

/-- The scopes of a form: the top level, and the inside of every group. -/
def Form.scopes (form : Form) : List (List Control) :=
  form.flatten.controls :: Control.scopesAll form.flatten.controls

/-- A scope whose members have proper names, no two of them the same, and bounds in order. -/
structure IsSound (scope : List Control) : Prop where
  proper : ∀ control ∈ scope, Text.isName control.ownName = true
  distinct : (scope.map Control.ownName).Nodup
  inOrder : ∀ control ∈ scope, ∀ b, control.bounds? = some b → ¬ b.min > b.max

/-! ## Members -/

/-- A member of a scope. -/
structure Member where
  /-- The names of the groups around the scope, the outermost first. -/
  above : List String
  /-- The earlier members of the scope. -/
  before : List Control
  control : Control

namespace Member

def name (m : Member) : String :=
  m.control.ownName

/-- The path of the scope as it is reported. -/
def scopePath (m : Member) : String :=
  if m.above = [] then "/" else pathOf m.above

/-- The names that the earlier members of the scope have taken, the last one first. -/
def taken (m : Member) : List String :=
  (m.before.map Control.ownName).reverse

/-- What is wrong with a member, the first of its faults: a blank name, an improper name, a name
that an earlier member of the scope has, and a minimum above its maximum. -/
inductive Fault (m : Member) : Defect → Prop
  | missing (blank : Text.isBlank m.name = true) :
      Fault m (.missingName s!"{pathOf m.above}/{m.control.kind.tag}[{m.before.length}]")
  | invalid (given : Text.isBlank m.name = false) (improper : Text.isName m.name = false) :
      Fault m (.invalidName m.scopePath m.name)
  | duplicate (proper : Text.isName m.name = true)
      (repeated : m.name ∈ m.before.map Control.ownName) :
      Fault m (.duplicateName m.scopePath m.name)
  | bounds (proper : Text.isName m.name = true) (free : m.name ∉ m.before.map Control.ownName)
      {b : Bounds} (bounded : m.control.bounds? = some b) (disorder : b.min > b.max) :
      Fault m (.invalidBounds (pathOf (m.above ++ [m.name])) b.min b.max)

/-- The check of a member: its name first and then its bounds. -/
def check (m : Member) : Except Defect Unit := do
  checkName (pathOf m.above) m.taken m.control.kind m.name
  checkBounds (pathOf (m.above ++ [m.name])) m.control.bounds?

end Member

namespace Control

mutual

/-- The members of a scope that come behind `before`, and those inside them, in order. -/
def membersAll (above : List String) (before : List Control) : List Control → List Member
  | [] => []
  | control :: controls =>
    ⟨above, before, control⟩ ::
      (membersInside above control ++ membersAll above (before ++ [control]) controls)

/-- The members inside a group, in order. Nothing is inside a question, and a flattened form has
no branches. -/
def membersInside (above : List String) : Control → List Member
  | group name _ children => membersAll (above ++ [name]) [] children
  | branch _ _ | question _ _ => []

end

end Control

/-- The members of the scopes of a form, in the order of its text. -/
def Form.members (form : Form) : List Member :=
  Control.membersAll [] [] form.flatten.controls

/-! ## Sound scopes -/

@[simp]
theorem Control.ownName_group (name : String) (label : Option LocalizedText)
    (children : List Control) : (group name label children).ownName = name := rfl

@[simp]
theorem Control.ownName_question (field : Field) (input : Input) :
    (question field input).ownName = field.name := rfl

theorem Control.bounds?_question (field : Field) (input : Input) :
    (question field input).bounds? = input.bounds? := by
  cases input <;> rfl

theorem isSound_nil : IsSound [] :=
  ⟨List.forall_mem_nil _, List.nodup_nil, List.forall_mem_nil _⟩

/-- A scope is sound when its first member is proper and differs from the others, and the others
make a sound scope. -/
theorem isSound_cons_iff {control : Control} {scope : List Control} :
    IsSound (control :: scope) ↔
      Text.isName control.ownName = true ∧ control.ownName ∉ scope.map Control.ownName ∧
        InOrder control.bounds? ∧ IsSound scope := by
  constructor
  · rintro ⟨hProper, hDistinct, hInOrder⟩
    obtain ⟨hName, hNames⟩ := List.forall_mem_cons.1 hProper
    obtain ⟨hNew, hOthers⟩ := List.nodup_cons.1 hDistinct
    obtain ⟨hBounds, hOtherBounds⟩ := List.forall_mem_cons.1 hInOrder
    exact ⟨hName, hNew, hBounds, hNames, hOthers, hOtherBounds⟩
  · rintro ⟨hName, hNew, hBounds, hNames, hOthers, hOtherBounds⟩
    exact ⟨List.forall_mem_cons.2 ⟨hName, hNames⟩, List.nodup_cons.2 ⟨hNew, hOthers⟩,
      List.forall_mem_cons.2 ⟨hBounds, hOtherBounds⟩⟩

namespace Outline

/-- The names of the members of a scope are those of the controls that it stands for. -/
theorem map_ownName_controls (o : Outline) : o.controls.map Control.ownName = o.names := by
  induction o with
  | done => rfl
  | question conditions field input rest ih =>
    rw [controls, List.map_cons, ih, names, Control.ownName_question]
  | group name label inside rest ihInside ihRest =>
    rw [controls, List.map_cons, ihRest, names, Control.ownName_group]

/-- An outline is well-formed exactly when all its scopes are sound. -/
theorem wellFormed_iff_scopes (o : Outline) :
    o.WellFormed ↔
      IsSound o.controls ∧ ∀ scope ∈ Control.scopesAll o.controls, IsSound scope := by
  induction o with
  | done => simp [WellFormed, controls, Control.scopesAll, isSound_nil]
  | question conditions field input rest ih =>
    rw [WellFormed, ih, controls, isSound_cons_iff, Control.scopesAll, Control.scopes,
      map_ownName_controls, Control.ownName_question, Control.bounds?_question, List.nil_append]
    simp only [and_assoc]
  | group name label inside rest ihInside ihRest =>
    -- the inside of the group is the first scope that it opens
    have hOrder : InOrder (Control.group name label inside.controls).bounds? := by
      intro b hb
      cases hb
    rw [WellFormed, ihInside, ihRest, controls, isSound_cons_iff, Control.scopesAll,
      Control.scopes, map_ownName_controls, Control.ownName_group, List.forall_mem_append,
      List.forall_mem_cons]
    tauto

/-! ## Members one after another -/

end Outline

theorem reverse_map_concat (before : List Control) (control : Control) :
    ((before ++ [control]).map Control.ownName).reverse =
      control.ownName :: (before.map Control.ownName).reverse := by
  rw [List.map_append, List.map_singleton, List.reverse_append, List.reverse_singleton,
    List.singleton_append]

/-- The check of an outline is that of its members, one after another. -/
theorem Outline.check_eq_forM_members (above : List String) (before : List Control) (o : Outline) :
    o.check (pathOf above) (before.map Control.ownName).reverse = (do
      (Control.membersAll above before o.controls).forM Member.check
      return ((before ++ o.controls).map Control.ownName).reverse) := by
  induction o generalizing above before with
  | done =>
    rw [check, controls, Control.membersAll, List.append_nil]
    rfl
  | question conditions field input rest ih =>
    -- the rest of the scope sees one more member before it
    have hRest := ih above (before ++ [.question field input])
    rw [reverse_map_concat, Control.ownName_question, List.append_assoc, List.singleton_append]
      at hRest
    rw [check, hRest, controls, Control.membersAll, Control.membersInside, List.nil_append]
    simp only [List.forM_eq_forM, List.forM_cons, Member.check, Control.bounds?_question,
      pathOf_concat, bind_assoc]
    rfl
  | group name label inside rest ihInside ihRest =>
    -- the inside of the group starts with no member before it, one name further down
    have hInside := ihInside (above ++ [name]) []
    have hRest := ihRest above (before ++ [.group name label inside.controls])
    rw [pathOf_concat, List.map_nil, List.reverse_nil, List.nil_append] at hInside
    rw [reverse_map_concat, Control.ownName_group, List.append_assoc, List.singleton_append]
      at hRest
    change (do
      checkName (pathOf above) (before.map Control.ownName).reverse .group name
      let _ ← inside.check (pathOf above ++ "/" ++ name) []
      rest.check (pathOf above) (name :: (before.map Control.ownName).reverse)) = _
    rw [hInside, hRest, controls, Control.membersAll, Control.membersInside]
    simp only [List.forM_eq_forM, List.forM_cons, List.forM_append, Member.check, bind_assoc,
      pure_bind]
    rfl

/-- The check of a form is that of its members, one after another. -/
theorem check_eq_forM_members (form : Form) : form.check = form.members.forM Member.check := by
  have hOutline := form.outline.check_eq_forM_members [] []
  rw [pathOf_nil, List.map_nil, List.reverse_nil, controls_outline] at hOutline
  rw [check_outline, hOutline, Form.members, bind_assoc]
  simp only [pure_bind]
  exact bind_pure _

/-! ## Faults -/

/-- The top level is reported as the root, and any other scope by its path. -/
theorem shownPath_pathOf (names : List String) :
    shownPath (pathOf names) = if names = [] then "/" else pathOf names := by
  cases names with
  | nil => rfl
  | cons name names => simp [shownPath, String.append_eq_empty_iff]

namespace Member

variable {m : Member} {defect : Defect}

theorem mem_taken_iff {name : String} : name ∈ m.taken ↔ name ∈ m.before.map Control.ownName :=
  List.mem_reverse

theorem length_taken (m : Member) : m.taken.length = m.before.length := by
  rw [taken, List.length_reverse, List.length_map]

/-- A name that passes is followed by the check of the bounds. -/
theorem check_eq_checkBounds (proper : Text.isName m.name = true)
    (free : m.name ∉ m.before.map Control.ownName) :
    m.check = checkBounds (pathOf (m.above ++ [m.name])) m.control.bounds? := by
  have hName : checkName (pathOf m.above) m.taken m.control.kind m.name = .ok () :=
    checkName_eq_ok_iff.2 ⟨proper, mt mem_taken_iff.1 free⟩
  rw [check, hName]
  rfl

/-- A member with a fault fails its check with that fault. -/
theorem Fault.check_eq (h : m.Fault defect) : m.check = .error defect := by
  cases h with
  | missing blank =>
    rw [check, checkName, if_pos blank, length_taken]
    rfl
  | invalid given improper =>
    have hBlank : ¬ Text.isBlank m.name = true := by simp [given]
    have hName : ¬ Text.isName m.name = true := by simp [improper]
    rw [check, checkName, if_neg hBlank, if_pos hName, shownPath_pathOf]
    rfl
  | duplicate proper repeated =>
    have hBlank : ¬ Text.isBlank m.name = true := by simp [Text.not_isBlank_of_isName proper]
    rw [check, checkName, if_neg hBlank, if_neg (not_not_intro proper),
      if_pos (mem_taken_iff.2 repeated), shownPath_pathOf]
    rfl
  | bounds proper free bounded disorder =>
    rw [check_eq_checkBounds proper free, bounded, checkBounds, if_pos disorder]

/-- A member without a fault passes its check. -/
theorem check_eq_ok_or_exists_fault (m : Member) : m.check = .ok () ∨ ∃ defect, m.Fault defect := by
  by_cases proper : Text.isName m.name = true
  · by_cases repeated : m.name ∈ m.before.map Control.ownName
    · exact .inr ⟨_, .duplicate proper repeated⟩
    · rw [check_eq_checkBounds proper repeated, checkBounds_eq_ok_iff]
      by_cases hOrder : InOrder m.control.bounds?
      · exact .inl hOrder
      · -- only bounds that are given can be out of order
        simp only [InOrder, not_forall, not_not] at hOrder
        obtain ⟨b, bounded, disorder⟩ := hOrder
        exact .inr ⟨_, .bounds proper repeated bounded disorder⟩
  · rw [Bool.not_eq_true] at proper
    cases blank : Text.isBlank m.name with
    | true => exact .inr ⟨_, .missing blank⟩
    | false => exact .inr ⟨_, .invalid blank proper⟩

/-- The check of a member answers its fault. -/
theorem check_eq_error_iff : m.check = .error defect ↔ m.Fault defect := by
  constructor
  · intro hCheck
    rcases m.check_eq_ok_or_exists_fault with hOk | ⟨other, hFault⟩
    · rw [hOk] at hCheck
      cases hCheck
    · rw [hFault.check_eq] at hCheck
      cases hCheck
      exact hFault
  · exact Fault.check_eq

/-- A member passes its check exactly when nothing is wrong with it. -/
theorem check_eq_ok_iff : m.check = .ok () ↔ ∀ defect, ¬ m.Fault defect := by
  constructor
  · intro hCheck defect hFault
    rw [hFault.check_eq] at hCheck
    cases hCheck
  · intro hNone
    rcases m.check_eq_ok_or_exists_fault with hOk | ⟨defect, hFault⟩
    · exact hOk
    · exact absurd hFault (hNone defect)

end Member

/-! ## The first of many -/

section

variable {α : Type} {P Q : α → Prop} {x : α} {xs : List α}

/-- The first that is `Q` where all before it are `P` stands at the head, or behind a head that is
`P`. -/
theorem exists_first_cons_iff :
    (∃ earlier y later, x :: xs = earlier ++ y :: later ∧ (∀ z ∈ earlier, P z) ∧ Q y) ↔
      Q x ∨ P x ∧ ∃ earlier y later, xs = earlier ++ y :: later ∧ (∀ z ∈ earlier, P z) ∧ Q y := by
  constructor
  · rintro ⟨earlier, y, later, hSplit, hEarlier, hFound⟩
    cases earlier with
    | nil =>
      obtain ⟨rfl, -⟩ := List.cons.inj hSplit
      exact .inl hFound
    | cons z earlier =>
      obtain ⟨rfl, hRest⟩ := List.cons.inj hSplit
      obtain ⟨hHead, hOthers⟩ := List.forall_mem_cons.1 hEarlier
      exact .inr ⟨hHead, earlier, y, later, hRest, hOthers, hFound⟩
  · rintro (hFound | ⟨hHead, earlier, y, later, rfl, hEarlier, hFound⟩)
    · exact ⟨[], x, xs, rfl, List.forall_mem_nil _, hFound⟩
    · exact ⟨x :: earlier, y, later, rfl, List.forall_mem_cons.2 ⟨hHead, hEarlier⟩, hFound⟩

/-- Checks one after another fail with the first failure, all checks before it having passed. -/
theorem forM_eq_error_iff {ε : Type} {f : α → Except ε Unit} {e : ε} :
    xs.forM f = .error e ↔
      ∃ earlier y later, xs = earlier ++ y :: later ∧ (∀ z ∈ earlier, f z = .ok ()) ∧
        f y = .error e := by
  induction xs with
  | nil => simp [pure, Except.pure]
  | cons x xs ih =>
    rw [exists_first_cons_iff, ← ih, List.forM_eq_forM, List.forM_cons]
    cases hHead : f x with
    | error d => simp [bind, Except.bind]
    | ok u => simp [bind, Except.bind]

end

/-! ## Forms -/

/-- A form passes its check exactly when each of its scopes is sound. It fails exactly with what
is wrong with the first member that has a fault: its position, the path of its scope or its own
path, and the first fault of that member. -/
theorem check_reports_first_fault (form : Form) :
    (form.check = .ok () ↔ ∀ scope ∈ form.scopes, IsSound scope) ∧
      ∀ defect, form.check = .error defect ↔
        ∃ earlier m later, form.members = earlier ++ m :: later ∧
          (∀ e ∈ earlier, ∀ d, ¬ Member.Fault e d) ∧ m.Fault defect := by
  constructor
  · rw [check_eq_ok_iff, Outline.wellFormed_iff_scopes, controls_outline, Form.scopes,
      List.forall_mem_cons]
  · intro defect
    rw [check_eq_forM_members, forM_eq_error_iff]
    simp only [Member.check_eq_error_iff, Member.check_eq_ok_iff]

/-- The question without a name is the second member of its scope, though the first of its arm. -/
example :
    Form.check ⟨"Arms", [.branch none [
      ⟨["a = 1"], [.question (Field.named "x") .date]⟩,
      ⟨["a = 2"], [.question (Field.named " ") .location]⟩]]⟩ =
    .error (.missingName "/inputLocation[1]") := rfl

end FormDesign
