import FormDesign.Proofs.Document.Gates
import FormDesign.Proofs.Form.RoundTrip

/-!
# Substance

The reader leaves nothing in a form that is set and says nothing: a label or a hint without text and
a blank expression, path or name are read as not set, in a question, in a group and in a branch, at
any depth. The compiler trusts the reader in this, as it drops only the blank conditions of arms.
So no document of a form that was read names an empty path, and no clause in it is empty.

## Main definitions

* `Control.IsNormalThroughout`: a control that is normal, as are those in it, at any depth;
* `NamesPath`: an element with an attribute that names a path.

## Main results

* `isNormal_of_ofJson`: a form that was read is normal;
* `namesPath_binds`, `namesPath_questions`: whatever names a path in its document names one that is
  not blank;
* `isBlank_of_mem_clauses`: no clause of a leaf in a normal form is blank.
-/

namespace FormDesign

open Json (Value Tree Fault Record Slot)
open Xml (Node escape)

/-- Each item of a list that is read has been read from a value. -/
theorem exists_of_mem_listOf {α : Type} {read : Value → Except Fault α} {v : Value} {as : List α}
    (h : Value.listOf read v = .ok as) {a : α} (ha : a ∈ as) : ∃ item, read item = .ok a := by
  cases v with
  | array items =>
    obtain ⟨item, -, hItem⟩ := exists_of_mem_mapM h ha
    exact ⟨item, hItem⟩
  | _ => exact nomatch h

/-! ## Properties -/

/-- A label or a hint that is read as set says something. -/
theorem saysSomething_of_readLabel {v : Value} {label : Option LocalizedText}
    (h : readLabel v = .ok label) : ∀ t ∈ label, t.SaysSomething := by
  intro t ht
  obtain rfl := ht
  unfold readLabel at h
  split at h
  · exact nomatch Except.ok.inj h
  · split_ifs at h
    exact nomatch Except.ok.inj h
  · split at h
    · next t' _ =>
      by_cases hBlank : t'.isBlank = true
      · rw [if_pos hBlank] at h
        exact nomatch Except.ok.inj h
      · rw [if_neg hBlank] at h
        obtain rfl := Option.some.inj (Except.ok.inj h)
        exact LocalizedText.isBlank_eq_false_iff.1 (Bool.eq_false_iff.2 hBlank)
    · exact nomatch h

/-- An expression, a path or a name that is read as set is not blank. -/
theorem isBlank_of_readUnlessBlank {v : Value} {text : Option String}
    (h : readUnlessBlank v = .ok text) : ∀ s ∈ text, Text.isBlank s = false := by
  intro s hs
  obtain rfl := hs
  obtain ⟨read, -, h⟩ := bind_eq_ok_iff.1 h
  cases read with
  | none => exact nomatch Except.ok.inj h
  | some s' =>
    by_cases hBlank : Text.isBlank s' = true
    · dsimp only at h
      rw [if_pos hBlank] at h
      exact nomatch Except.ok.inj h
    · dsimp only at h
      rw [if_neg hBlank] at h
      obtain rfl := Option.some.inj (Except.ok.inj h)
      exact Bool.eq_false_iff.2 hBlank

/-- Nothing in a field that is read is set to what counts as not set. -/
theorem Field.keeps_record : ∀ s ∈ Field.record.slots, s.Keeps Field.IsNormal := by
  simp only [Field.record, List.forall_mem_cons]
  refine ⟨?name, ?label, ?hint, ?required, ?readOnly, ?relevance, ?constraint, ?destination,
    fun s hs => absurd hs List.not_mem_nil⟩
  case name | required | readOnly =>
    exact Slot.keeps_optional fun _ _ _ _ h =>
      ⟨h.label, h.hint, h.relevance, h.constraint, h.destination⟩
  case label =>
    exact Slot.keeps_optional fun _ _ _ hRead h =>
      ⟨saysSomething_of_readLabel hRead, h.hint, h.relevance, h.constraint, h.destination⟩
  case hint =>
    exact Slot.keeps_optional fun _ _ _ hRead h =>
      ⟨h.label, saysSomething_of_readLabel hRead, h.relevance, h.constraint, h.destination⟩
  case relevance =>
    exact Slot.keeps_optional fun _ _ _ hRead h =>
      ⟨h.label, h.hint, isBlank_of_readUnlessBlank hRead, h.constraint, h.destination⟩
  case constraint =>
    exact Slot.keeps_optional fun _ _ _ hRead h =>
      ⟨h.label, h.hint, h.relevance, isBlank_of_readUnlessBlank hRead, h.destination⟩
  case destination =>
    exact Slot.keeps_optional fun _ _ _ hRead h =>
      ⟨h.label, h.hint, h.relevance, h.constraint, isBlank_of_readUnlessBlank hRead⟩

theorem Field.isNormal_blank : Field.record.blank.IsNormal :=
  ⟨nofun, nofun, nofun, nofun, nofun⟩

/-! ## Controls -/

namespace Control

/-- Nothing in a control, at any depth, is set to what counts as not set. -/
def IsNormalThroughout (control : Control) : Prop :=
  ∀ c ∈ control.within, c.IsNormal

/-- A control is normal throughout if it is normal and the controls right inside are. -/
theorem isNormalThroughout_of_inner {control : Control} (hOwn : control.IsNormal)
    (hInner : ∀ d ∈ control.inner, d.IsNormalThroughout) : control.IsNormalThroughout := by
  cases control with
  | group name label children =>
    rw [IsNormalThroughout, within, withinAll_eq_flatMap]
    exact List.forall_mem_cons.2 ⟨hOwn, List.forall_mem_flatMap.2 hInner⟩
  | branch name arms =>
    rw [IsNormalThroughout, within, withinArms_eq_flatMap]
    refine List.forall_mem_cons.2 ⟨hOwn, List.forall_mem_flatMap.2 fun arm hArm => ?_⟩
    exact List.forall_mem_flatMap.2 fun d hd => hInner d (List.mem_flatMap.2 ⟨arm, hArm, hd⟩)
  | question field input => exact List.forall_mem_singleton.2 hOwn

/-- What has been read as a record from what is left of a control has what every field keeps. -/
theorem Body.record_invariant {ρ : Type} {r : Record Value ρ} {P : ρ → Prop}
    (hFill : ∀ s ∈ r.slots, s.Keeps P) (hBlank : P r.blank) {body : Body} {filled : ρ}
    (h : body.record r = .ok filled) : P filled := by
  cases body with
  | members members => exact Value.recordOf_invariant (v := .object members) hFill hBlank h
  | items items => exact Value.recordOf_invariant (v := .array items) hFill hBlank h

variable {child : Value → Except Fault Control}

/-- A group keeps its label from saying nothing, and its children normal. -/
theorem keeps_groupRecord (hChild : ∀ v c, child v = .ok c → c.IsNormalThroughout) :
    ∀ s ∈ (groupRecord child).slots, s.Keeps fun g =>
      (∀ t ∈ g.label, t.SaysSomething) ∧ ∀ d ∈ g.children, d.IsNormalThroughout := by
  simp only [groupRecord, List.forall_mem_cons]
  refine ⟨?name, ?label, ?children, fun s hs => absurd hs List.not_mem_nil⟩
  case name => exact Slot.keeps_optional fun _ _ _ _ h => h
  case label =>
    exact Slot.keeps_optional fun _ _ _ hRead h => ⟨saysSomething_of_readLabel hRead, h.2⟩
  case children =>
    refine Slot.keeps_optional fun _ _ _ hRead h => ⟨h.1, fun d hd => ?_⟩
    obtain ⟨v, hv⟩ := exists_of_mem_listOf hRead hd
    exact hChild v d hv

theorem keeps_armRecord (hChild : ∀ v c, child v = .ok c → c.IsNormalThroughout) :
    ∀ s ∈ (armRecord child).slots, s.Keeps fun arm =>
      ∀ d ∈ arm.children, d.IsNormalThroughout := by
  simp only [armRecord, List.forall_mem_cons]
  refine ⟨?conditions, ?children, fun s hs => absurd hs List.not_mem_nil⟩
  case conditions => exact Slot.keeps_optional fun _ _ _ _ h => h
  case children =>
    refine Slot.keeps_optional fun _ _ _ hRead _ d hd => ?_
    obtain ⟨v, hv⟩ := exists_of_mem_listOf hRead hd
    exact hChild v d hv

/-- A branch keeps its name from being blank, and the controls in its arms normal. -/
theorem keeps_branchRecord (hChild : ∀ v c, child v = .ok c → c.IsNormalThroughout) :
    ∀ s ∈ (branchRecord child).slots, s.Keeps fun b =>
      (∀ name ∈ b.name, Text.isBlank name = false) ∧
        ∀ arm ∈ b.arms, ∀ d ∈ arm.children, d.IsNormalThroughout := by
  simp only [branchRecord, List.forall_mem_cons]
  refine ⟨?name, ?arms, fun s hs => absurd hs List.not_mem_nil⟩
  case name =>
    exact Slot.keeps_optional fun _ _ _ hRead h => ⟨isBlank_of_readUnlessBlank hRead, h.2⟩
  case arms =>
    refine Slot.keeps_optional fun _ _ _ hRead h => ⟨h.1, fun arm hArm => ?_⟩
    obtain ⟨v, hv⟩ := exists_of_mem_listOf hRead hArm
    exact Value.recordOf_invariant (keeps_armRecord hChild)
      (fun d hd => absurd hd List.not_mem_nil) hv

/-- A question is normal, whatever belongs to its kind. -/
theorem isNormalThroughout_of_question {ρ : Type} {r : Record Value ρ} {input : ρ → Input}
    {body : Body} {control : Control} (h : body.question r input = .ok control) :
    control.IsNormalThroughout := by
  cases body with
  | members members =>
    obtain ⟨own, -, h⟩ := bind_eq_ok_iff.1 h
    obtain ⟨field, hField, h⟩ := bind_eq_ok_iff.1 h
    obtain rfl := Except.ok.inj h
    have hNormal : field.IsNormal :=
      Record.keyed_invariant Field.keeps_record Field.isNormal_blank hField
    exact isNormalThroughout_of_inner hNormal fun d hd => absurd hd List.not_mem_nil
  | items items => exact nomatch h

/-- A question without properties of its own is normal. -/
theorem isNormalThroughout_of_field {input : Input} {body : Body} {control : Control}
    (h : (do return .question (← body.record Field.record) input) = Except.ok control) :
    control.IsNormalThroughout := by
  obtain ⟨field, hField, h⟩ := bind_eq_ok_iff.1 h
  obtain rfl := Except.ok.inj h
  have hNormal : field.IsNormal :=
    Body.record_invariant Field.keeps_record Field.isNormal_blank hField
  exact isNormalThroughout_of_inner hNormal fun d hd => absurd hd List.not_mem_nil

/-- A control is read as normal when those in it are. -/
theorem isNormalThroughout_of_ofBody (hChild : ∀ v c, child v = .ok c → c.IsNormalThroughout)
    {kind : Kind} {body : Body} {control : Control} (h : ofBody child kind body = .ok control) :
    control.IsNormalThroughout := by
  cases kind with
  | group =>
    obtain ⟨g, hGroup, h⟩ := bind_eq_ok_iff.1 h
    obtain rfl := Except.ok.inj h
    obtain ⟨hLabel, hChildren⟩ := Body.record_invariant (keeps_groupRecord hChild)
      ⟨nofun, fun d hd => absurd hd List.not_mem_nil⟩ hGroup
    exact isNormalThroughout_of_inner hLabel hChildren
  | branch =>
    obtain ⟨b, hBranch, h⟩ := bind_eq_ok_iff.1 h
    obtain rfl := Except.ok.inj h
    obtain ⟨hName, hArms⟩ := Body.record_invariant (keeps_branchRecord hChild)
      ⟨nofun, fun arm hArm => absurd hArm List.not_mem_nil⟩ hBranch
    exact isNormalThroughout_of_inner hName (List.forall_mem_flatMap.2 hArms)
  | date | location => exact isNormalThroughout_of_field h
  | text | numeric | media | selectOne | selectMany => exact isNormalThroughout_of_question h

/-- A control that is read from a value is normal throughout. -/
theorem isNormalThroughout_of_ofValue {room : Nat} {v : Value} {control : Control}
    (h : ofValue room v = .ok control) : control.IsNormalThroughout := by
  induction room generalizing v control with
  | zero => exact nomatch h
  | succ room ih =>
    obtain ⟨⟨kind, body⟩, -, h⟩ := bind_eq_ok_iff.1 h
    exact isNormalThroughout_of_ofBody (fun _ _ => ih) h

/-- A control that is read from a text is normal throughout. -/
theorem isNormalThroughout_of_read {room : Nat} {t : Tree} {control : Control}
    (h : read room t = .ok control) : control.IsNormalThroughout := by
  cases room with
  | zero => cases t <;> exact nomatch h
  | succ room =>
    obtain ⟨⟨kind, body⟩, -, h⟩ := bind_eq_ok_iff.1 h
    exact isNormalThroughout_of_ofBody (fun _ _ => isNormalThroughout_of_ofValue) h

end Control

/-! ## Forms -/

namespace Form

/-- Each control of a list that is read is normal throughout. -/
theorem isNormalThroughout_of_list {room : Nat} {t : Tree} {controls : List Control}
    (h : Tree.list Control.read room t = .ok controls) :
    ∀ c ∈ controls, c.IsNormalThroughout := by
  obtain ⟨inner, items, rfl, rfl, hItems⟩ := Tree.exists_of_list h
  intro c hc
  obtain ⟨item, -, hItem⟩ := exists_of_forall₂ hItems.flip hc
  exact Control.isNormalThroughout_of_read hItem

/-- A form that is read has nothing in it that is set to what counts as not set. -/
theorem isNormal_of_ofJson {text : String} {form : Form} (h : ofJson text = .ok form) :
    form.IsNormal := by
  obtain ⟨t, hRead, -⟩ := Json.exists_tree_of_readText h
  have hKeeps : ∀ s ∈ (record (Json.maxRoom - 1)).slots, s.Keeps fun form =>
      ∀ c ∈ form.controls, c.IsNormalThroughout := by
    simp only [record, List.forall_mem_cons]
    refine ⟨?title, ?controls, fun s hs => absurd hs List.not_mem_nil⟩
    case title => exact Slot.keeps_optional fun _ _ _ _ h => h
    case controls =>
      exact Slot.keeps_optional fun _ _ _ hRead _ => isNormalThroughout_of_list hRead
  have hControls : ∀ c ∈ form.controls, c.IsNormalThroughout :=
    Tree.recordOf_invariant hKeeps (fun c hc => absurd hc List.not_mem_nil) hRead
  rw [IsNormal, Control.withinAll_eq_flatMap]
  exact List.forall_mem_flatMap.2 hControls

end Form

/-! ## Leaves -/

namespace Control

mutual

/-- The question of a leaf is among the controls at any depth. -/
theorem question_mem_within {leaf : Leaf} : ∀ {control : Control}, leaf ∈ control.leaves →
    .question leaf.field leaf.input ∈ control.within
  | .group name label children, h => by
    obtain ⟨inside, hInside, rfl⟩ := List.mem_map.1 (by rwa [leaves] at h)
    rw [within]
    have hQuestion : .question inside.field inside.input ∈ withinAll children :=
      question_mem_withinAll hInside
    exact List.mem_cons_of_mem _ hQuestion
  | .branch name arms, h => by
    rw [leaves] at h
    rw [within]
    exact List.mem_cons_of_mem _ (question_mem_withinArms h)
  | .question field input, h => by
    rw [leaves, List.mem_singleton] at h
    subst h
    exact mem_within _

theorem question_mem_withinAll {leaf : Leaf} : ∀ {controls : List Control},
    leaf ∈ leavesAll controls → .question leaf.field leaf.input ∈ withinAll controls
  | [], h => absurd h (by rw [leavesAll]; exact List.not_mem_nil)
  | control :: controls, h => by
    rw [leavesAll, List.mem_append] at h
    rw [withinAll, List.mem_append]
    exact h.imp question_mem_within question_mem_withinAll

theorem question_mem_withinArms {leaf : Leaf} : ∀ {arms : List (Arm Control)},
    leaf ∈ leavesArms arms → .question leaf.field leaf.input ∈ withinArms arms
  | [], h => absurd h (by rw [leavesArms]; exact List.not_mem_nil)
  | ⟨own, children⟩ :: arms, h => by
    rw [leavesArms, List.mem_append] at h
    rw [withinArms, List.mem_append]
    refine h.imp (fun hArm => ?_) question_mem_withinArms
    obtain ⟨inside, hInside, rfl⟩ := List.mem_map.1 hArm
    have hQuestion : .question inside.field inside.input ∈ withinAll children :=
      question_mem_withinAll hInside
    exact hQuestion

end

end Control

/-- The field of a leaf of a normal form is normal. -/
theorem Form.IsNormal.field {form : Form} (h : form.IsNormal) {leaf : Leaf}
    (hLeaf : leaf ∈ form.leaves) : leaf.field.IsNormal :=
  h _ (Control.question_mem_withinAll hLeaf)

/-- The field of a site of a normal form is normal. -/
theorem Form.IsNormal.field_of_site {form : Form} (h : form.IsNormal) {s : Site}
    (hs : s ∈ form.sites) : s.field.IsNormal := by
  have hMem : s.leaf ∈ form.leaves.map (Leaf.under []) :=
    map_leaf_sites form ▸ List.mem_map_of_mem hs
  obtain ⟨leaf, hLeaf, hSame⟩ := List.mem_map.1 hMem
  have hField : leaf.field = s.field := congrArg Leaf.field hSame
  exact hField ▸ h.field hLeaf

/-! ## Clauses and paths -/

/-- Escaping makes no text blank, and none that is blank anything else. -/
theorem isBlank_escape (text : String) : Text.isBlank (escape text) = Text.isBlank text := by
  have hChar : ∀ c : Char, (Xml.escapeChar c).all Text.isSpace = Text.isSpace c := by
    intro c
    cases hReserved : Xml.isReserved c with
    | false => simp [Xml.escapeChar_of_not_isReserved hReserved]
    | true =>
      simp only [Xml.isReserved, Bool.or_eq_true, decide_eq_true_eq] at hReserved
      rcases hReserved with ((rfl | rfl) | rfl) | rfl <;> decide
  rw [Text.isBlank, Text.isBlank, Xml.toList_escape]
  generalize text.toList = cs
  induction cs with
  | nil => rfl
  | cons c cs ih => rw [List.flatMap_cons, List.all_append, hChar, ih, List.all_cons]

/-- What begins with a text that is not blank is not blank. -/
theorem isBlank_append_left {s : String} (h : Text.isBlank s = false) (t : String) :
    Text.isBlank (s ++ t) = false := by
  rw [Text.isBlank_append, h, Bool.false_and]

/-- No clause of a leaf with a normal field is blank, whatever conditions stand around it. -/
theorem isBlank_of_mem_clauses {leaf : Leaf} (h : leaf.field.IsNormal) :
    ∀ clause ∈ leaf.relevanceClauses ++ leaf.constraintClauses, Text.isBlank clause = false := by
  have hGates : ∀ c ∈ leaf.gates, Text.isBlank c = false := fun c hc => by
    simpa using List.of_mem_filter hc
  have hBounds : ∀ clause ∈ leaf.boundsClauses, Text.isBlank clause = false := by
    intro clause hClause
    rw [Leaf.boundsClauses] at hClause
    split at hClause
    · rw [List.mem_singleton.1 hClause]
      simp only [toString, String.append_assoc]
      exact isBlank_append_left (by decide) _
    · rw [List.mem_singleton.1 hClause]
      simp only [toString, String.append_assoc]
      exact isBlank_append_left (by decide) _
    · exact absurd hClause List.not_mem_nil
  have hEscape : ∀ {texts : List String}, (∀ s ∈ texts, Text.isBlank s = false) →
      ∀ clause ∈ texts.map escape, Text.isBlank clause = false := fun hTexts =>
    List.forall_mem_map.2 fun s hs => (isBlank_escape s).trans (hTexts s hs)
  simp only [Leaf.relevanceClauses, Leaf.constraintClauses, List.forall_mem_append]
  refine ⟨⟨hEscape hGates, hEscape ?_⟩, hBounds, hEscape ?_⟩
  · exact fun s hs => h.relevance s (Option.mem_toList.1 hs)
  · exact fun s hs => h.constraint s (Option.mem_toList.1 hs)

/-! ## Documents -/

/-- An element with an attribute that names a path, which is not blank. -/
def NamesPath (key : String) (node : Node) : Prop :=
  ∃ path, node.attrs.get? key = some path ∧ Text.isBlank path = false

/-- A path of names is not blank, as it begins with a slash. -/
theorem isBlank_pathOf_cons (name : String) (names : List String) :
    Text.isBlank (pathOf (name :: names)) = false := by
  rw [pathOf_cons, String.append_assoc]
  exact isBlank_append_left (by decide) _

section

variable {form : Form} {options : Options} {s : Site}

/-- A bind names a path that is not blank, as a destination that is set is not blank. -/
theorem namesPath_bind (root : String) (h : s.field.IsNormal) :
    NamesPath "nodeset" (s.field.bind escape (s.scope (.top root)) s.input) := by
  refine ⟨_, Field.get?_nodeset_bind .., ?_⟩
  rw [Field.nodeset]
  cases hDestination : s.field.destination with
  | none =>
    dsimp only
    rw [Site.path_eq]
    exact isBlank_pathOf_cons _ _
  | some destination =>
    dsimp only
    rw [isBlank_escape]
    exact h.destination destination hDestination

/-- An element of the body names a path that is not blank, also one that names it from the root of
the instance, as that ends in the name of the question. -/
theorem namesPath_bodyNode (options : Options) (h : s.field.IsNormal)
    (hName : Text.isName s.field.name = true) :
    NamesPath "ref" (s.field.bodyNode escape options.bodyRefs
      (s.scope (.top options.instanceRoot)) s.input) := by
  refine ⟨_, Field.get?_ref_bodyNode .., ?_⟩
  unfold Field.bodyRef
  cases hDestination : s.field.destination with
  | none =>
    cases options.bodyRefs with
    | absolute =>
      rw [Site.path_eq]
      exact isBlank_pathOf_cons _ _
    | relative =>
      rw [Text.isBlank_append, Text.not_isBlank_of_isName hName, Bool.and_false]
  | some destination =>
    rw [isBlank_escape]
    exact h.destination destination hDestination

end

/-- In a form that was read from a text, every label and hint that is set has some text, and every
relevance, constraint, destination or branch name that is set is not blank, at any depth. So in its
document, whatever the options are, every bind and every element that asks a question names a path
that is not blank, and the attributes of each bind that say when its question is asked and what its
answer must satisfy hold the clauses of its leaf, none of which is blank. -/
theorem ofJson_says_something {text : String} {form : Form} (hRead : Form.ofJson text = .ok form) :
    form.IsNormal ∧
      ∀ {options : Options} {doc : Node}, form.compile options = .ok doc →
        (∀ bind ∈ Document.binds doc, NamesPath "nodeset" bind) ∧
        (∀ question ∈ Document.questions doc, NamesPath "ref" question) ∧
        List.Forall₂ (fun leaf bind =>
            IsJoined (bind.attrs.get? "relevant") leaf.relevanceClauses ∧
              IsJoined (bind.attrs.get? "constraint") leaf.constraintClauses)
          form.leaves (Document.binds doc) ∧
        ∀ leaf ∈ form.leaves, ∀ clause ∈ leaf.relevanceClauses ++ leaf.constraintClauses,
          Text.isBlank clause = false := by
  have hNormal : form.IsNormal := Form.isNormal_of_ofJson hRead
  refine ⟨hNormal, fun {options doc} hCompile => ?_⟩
  obtain ⟨-, hWell, rfl⟩ := compile_eq_ok_iff.1 hCompile
  rw [Document.binds_documentWith, Document.questions_documentWith]
  refine ⟨List.forall_mem_map.2 fun s hs => ?binds, List.forall_mem_map.2 fun s hs => ?questions,
    ?clauses, fun leaf hLeaf => isBlank_of_mem_clauses (hNormal.field hLeaf)⟩
  case binds => exact namesPath_bind _ (hNormal.field_of_site hs)
  case questions =>
    have hName : Text.isName s.field.name = true :=
      Outline.isName_of_mem_paths hWell s.names (Outline.names_mem_paths hs) s.field.name
        (List.mem_append_right _ (List.mem_singleton_self _))
    exact namesPath_bodyNode options (hNormal.field_of_site hs) hName
  case clauses =>
    refine forall₂_leaves_map_sites form fun leaf s hLeaf => ?_
    have hGated := isGated_bind (.top options.instanceRoot) hLeaf
    exact ⟨hGated.relevant, hGated.constraint⟩

/-- A document in which a branch with a blank name has an arm with a blank condition and one that
counts, around a question whose label says nothing and whose relevance and destination are blank,
but not its constraint. -/
def hollowDocument : Value :=
  .object [
    ("title", .string "Hollow"),
    ("controls", .array [
      .object [
        ("type", .string "branch"),
        ("name", .string " "),
        ("branches", .array [
          .object [
            ("conditions", .array [.string "\t", .string "a < 1"]),
            ("children", .array [
              .object [
                ("type", .string "inputText"),
                ("name", .string "q"),
                ("label", .object [("en", .string "")]),
                ("relevance", .string " "),
                ("constraint", .string ". != 5"),
                ("destination", .string "")]])]])]])]

/-- What `hollowDocument` is read as. -/
def hollowForm : Form where
  title := "Hollow"
  controls := [
    .branch none [
      ⟨["\t", "a < 1"], [
        .question { Field.named "q" with constraint := some ". != 5" } (.text none)]⟩]]

theorem ofJson_says_something_hollow :
    Form.ofJson hollowDocument.compact = .ok hollowForm ∧ hollowForm.IsNormal ∧
      hollowForm.compile Options.default = .ok (hollowForm.documentWith escape .default) ∧
      (∀ bind ∈ Document.binds (hollowForm.documentWith escape .default),
        NamesPath "nodeset" bind) ∧
      hollowForm.leaves.map Leaf.relevanceClauses = [["a &lt; 1"]] ∧
      hollowForm.leaves.map Leaf.constraintClauses = [[". != 5"]] := by
  have hRead : Form.ofJson hollowDocument.compact = .ok hollowForm := by
    have hValue : Json.readText Tree.value hollowDocument.compact = .ok hollowDocument :=
      (Json.readText_print Tree.value .compact hollowDocument).trans rfl
    rw [← toOption_eq_some_iff, Form.toOption_ofJson hValue]
    rfl
  have hCompile : hollowForm.compile Options.default =
      .ok (hollowForm.documentWith escape .default) := rfl
  obtain ⟨hNormal, hDocument⟩ := ofJson_says_something hRead
  obtain ⟨hBinds, -, -, -⟩ := hDocument hCompile
  exact ⟨hRead, hNormal, hCompile, hBinds, by decide +kernel, by decide +kernel⟩

end FormDesign
