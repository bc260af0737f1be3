import FormDesign.Proofs.Control.Normal
import FormDesign.Proofs.Form.FirstFault

/-!
# Forms that are read again

A normal form that is written is read again as the same form, at any depth that a reader follows,
so that two normal forms are never written alike.

## Main definitions

* `Control.members`: the members of a control as an object;
* `Form.IsNormal`: a form in which nothing is set to what counts as not set.

## Main results

* `Control.ofValue_toValue`: a normal control is read again;
* `Form.ofJson_compact`: a normal form is read again from its text.
-/

namespace FormDesign

open Json (Value Tree Fault Record Slot)

namespace Control

/-! ## Members -/

/-- Controls are written one by one. -/
theorem toValues_eq_map (controls : List Control) : toValues controls = controls.map toValue := by
  induction controls with
  | nil => rfl
  | cons control controls ih => rw [toValues, ih, List.map_cons]

/-- The members of an arm as an object. -/
def armMembers (arm : Arm Control) : List (String × Value) :=
  (if arm.conditions.isEmpty then [] else [("conditions", .array (arm.conditions.map .string))]) ++
    [("children", .array (arm.children.map toValue))]

/-- Arms are written one by one. -/
theorem armValues_eq_map (arms : List (Arm Control)) :
    armValues arms = arms.map fun arm => .object (armMembers arm) := by
  induction arms with
  | nil => rfl
  | cons arm arms ih =>
    rw [armValues, toValues_eq_map, ih, List.map_cons]
    rfl

/-- The members of a control as an object. -/
def members : Control → List (String × Value)
  | group name label children =>
    tagMember .group :: ("name", .string name) ::
      memberOf "label" (label.map LocalizedText.toValue) ++
      [("children", .array (children.map toValue))]
  | branch name arms =>
    tagMember .branch :: memberOf "name" (name.map .string) ++
      [("branches", .array (arms.map fun arm => .object (armMembers arm)))]
  | question field input => questionMembers field input

/-- A control is written as an object of its members. -/
theorem toValue_eq_object (control : Control) : control.toValue = .object control.members := by
  cases control with
  | group name label children =>
    rw [toValue, toValues_eq_map]
    rfl
  | branch name arms =>
    rw [toValue, armValues_eq_map]
    rfl
  | question field input =>
    rw [toValue]
    rfl

/-- A control inside another nests less deep. -/
theorem depth_toValue_of_mem_inner {control d : Control} {room : Nat}
    (h : control.toValue.depth ≤ room + 1) (hd : d ∈ control.inner) : d.toValue.depth ≤ room := by
  rw [toValue_eq_object, Value.depth_object_le_iff] at h
  cases control with
  | group name label children =>
    have hChildren : (Value.array (children.map toValue)).depth ≤ room :=
      h ("children", _) (by simp [members])
    exact Value.depth_le_of_mem_items hChildren (List.mem_map_of_mem hd)
  | branch name arms =>
    -- between the two controls there are a list of arms, an arm and its list of children
    obtain ⟨arm, hArm, hChild⟩ := List.mem_flatMap.1 hd
    have hArms : (Value.array (arms.map fun arm => .object (armMembers arm))).depth ≤ room :=
      h ("branches", _) (by simp [members])
    have hMembers : (Value.object (armMembers arm)).depth ≤ room :=
      Value.depth_le_of_mem_items hArms (List.mem_map_of_mem hArm)
    have hMember : ("children", .array (arm.children.map toValue)) ∈ armMembers arm :=
      List.mem_append_right _ (List.mem_singleton_self _)
    have hChildren : (Value.array (arm.children.map toValue)).depth ≤ room :=
      Value.depth_le_of_mem_members hMembers hMember
    exact Value.depth_le_of_mem_items hChildren (List.mem_map_of_mem hChild)
  | question field input => exact absurd hd List.not_mem_nil

/-! ## Containers

What a container adds to its kind is read from what its members say of it. The controls inside are
read by whatever reader `child` there is for them. -/

section

variable {child : Value → Except Fault Control}

/-- A group is read again when its children are. -/
theorem ofBody_groupMembers {name : String} {label : Option LocalizedText}
    {children : List Control} (hLabel : ∀ t ∈ label, t.SaysSomething)
    (h : ∀ c ∈ children, child c.toValue = .ok c) :
    ofBody child .group (.members (apart (group name label children).members)) =
      .ok (.group name label children) := by
  have hType : ∀ s ∈ (groupRecord child).slots, "type" ∉ s.keys := by
    simp [groupRecord, Slot.keys, Slot.optional]
  have hName : Json.underKeys ["name", "Name"] (group name label children).members =
      [.string name] := by
    simp [members, tagMember]
  have hLabelMember : Json.underKeys ["label", "Label"] (group name label children).members =
      (label.map LocalizedText.toValue).toList := by
    simp [members, tagMember]
  have hChildren : Json.underKeys ["children"] (group name label children).members =
      [.array (children.map toValue)] := by
    simp [members, tagMember]
  have hText : Value.text (.string name) = .ok name := rfl
  -- the label is read from one member or, where it is not set, from none
  have hRecord : Body.record (groupRecord child)
      (.members (apart (group name label children).members)) = .ok ⟨name, label, children⟩ := by
    rw [← toOption_eq_some_iff, toOption_record (isLawful_groupRecord child) hType]
    simp only [Record.assemble, groupRecord, List.foldlM_cons, List.foldlM_nil,
      Slot.contents_optional]
    rw [hName, hLabelMember, hChildren]
    simp only [Slot.take_singleton _ hText,
      Slot.take_toList _ fun t ht => readLabel_toValue (hLabel t ht),
      Slot.take_singleton _ (listOf_map h), Option.bind_eq_bind, Option.bind_some]
    cases label <;> rfl
  rw [ofBody, hRecord]
  rfl

/-- An arm is read again when its children are. -/
theorem recordOf_armMembers {arm : Arm Control} (h : ∀ c ∈ arm.children, child c.toValue = .ok c) :
    Value.recordOf (armRecord child) (.object (armMembers arm)) = .ok arm := by
  have hConditions : Json.underKeys ["conditions"] (armMembers arm) =
      if arm.conditions.isEmpty then [] else [.array (arm.conditions.map .string)] := by
    rw [armMembers]
    split_ifs <;> rfl
  have hChildren : Json.underKeys ["children"] (armMembers arm) =
      [.array (arm.children.map toValue)] := by
    rw [armMembers]
    split_ifs <;> rfl
  obtain ⟨conditions, children⟩ := arm
  have hTexts : Value.listOf Value.text (.array (conditions.map .string)) = .ok conditions :=
    listOf_map fun _ _ => rfl
  rw [Value.recordOf, ← toOption_eq_some_iff, (isLawful_armRecord child).toOption_recordOfMembers]
  simp only [Record.assemble, armRecord, List.foldlM_cons, List.foldlM_nil,
    Slot.contents_optional]
  rw [hConditions, hChildren]
  -- conditions are left out where there are none
  cases conditions with
  | nil =>
    simp only [List.isEmpty_nil, if_true, Slot.take_nil, Slot.take_singleton _ (listOf_map h),
      Option.bind_eq_bind, Option.bind_some]
    rfl
  | cons first conditions =>
    simp only [List.isEmpty_cons, Bool.false_eq_true, if_false, Slot.take_singleton _ hTexts,
      Slot.take_singleton _ (listOf_map h), Option.bind_eq_bind, Option.bind_some]
    rfl

/-- A branch is read again when the children of its arms are. -/
theorem ofBody_branchMembers {name : Option String} {arms : List (Arm Control)}
    (hName : ∀ s ∈ name, Text.isBlank s = false)
    (h : ∀ arm ∈ arms, ∀ c ∈ arm.children, child c.toValue = .ok c) :
    ofBody child .branch (.members (apart (branch name arms).members)) =
      .ok (.branch name arms) := by
  have hType : ∀ s ∈ (branchRecord child).slots, "type" ∉ s.keys := by
    simp [branchRecord, Slot.keys, Slot.optional]
  have hNameMember : Json.underKeys ["name", "Name"] (branch name arms).members =
      (name.map Value.string).toList := by
    simp [members, tagMember]
  have hBranches : Json.underKeys ["branches"] (branch name arms).members =
      [.array (arms.map fun arm => .object (armMembers arm))] := by
    simp [members, tagMember]
  have hArms : ∀ arm ∈ arms,
      Value.recordOf (armRecord child) (.object (armMembers arm)) = .ok arm :=
    fun arm hArm => recordOf_armMembers (h arm hArm)
  have hRecord : Body.record (branchRecord child) (.members (apart (branch name arms).members)) =
      .ok ⟨name, arms⟩ := by
    rw [← toOption_eq_some_iff, toOption_record (isLawful_branchRecord child) hType]
    simp only [Record.assemble, branchRecord, List.foldlM_cons, List.foldlM_nil,
      Slot.contents_optional]
    rw [hNameMember, hBranches]
    simp only [Slot.take_toList _ fun s hs => readUnlessBlank_string (hName s hs),
      Slot.take_singleton _ (listOf_map hArms), Option.bind_eq_bind, Option.bind_some]
    cases name <;> rfl
  rw [ofBody, hRecord]
  rfl

/-- A normal control is read again when the controls right inside are. -/
theorem ofBody_members {control : Control} (hNormal : control.IsNormal)
    (h : ∀ d ∈ control.inner, child d.toValue = .ok d) :
    ofBody child control.kind (.members (apart control.members)) = .ok control := by
  cases control with
  | group name label children => exact ofBody_groupMembers hNormal h
  | branch name arms =>
    exact ofBody_branchMembers hNormal fun arm hArm c hc => h c (List.mem_flatMap.2 ⟨arm, hArm, hc⟩)
  | question field input => exact ofBody_questionMembers child hNormal input

end

/-! ## Controls -/

/-- A control is written with one tag, before the other members. -/
theorem exists_members_eq_cons (control : Control) :
    ∃ others, control.members = tagMember control.kind :: others ∧
      ∀ member ∈ others, member.1 ≠ "type" := by
  cases control with
  | group name label children =>
    refine ⟨_, rfl, fun member hMember => ?_⟩
    rcases List.mem_cons.1 hMember with rfl | hMember
    · exact show ("name" : String) ≠ "type" by decide
    rcases List.mem_append.1 hMember with hLabel | hChildren
    · rw [key_of_mem_memberOf hLabel]
      decide
    · rw [List.mem_singleton.1 hChildren]
      exact show ("children" : String) ≠ "type" by decide
  | branch name arms =>
    refine ⟨_, rfl, fun member hMember => ?_⟩
    rcases List.mem_append.1 hMember with hName | hBranches
    · rw [key_of_mem_memberOf hName]
      decide
    · rw [List.mem_singleton.1 hBranches]
      exact show ("branches" : String) ≠ "type" by decide
  | question field input =>
    refine ⟨_, rfl, fun member hMember hType => ?_⟩
    rcases List.mem_append.1 hMember with hField | hInput
    · exact absurd (hType ▸ Field.key_mem hField) (by decide)
    · exact absurd (hType ▸ Input.key_mem hInput) (by decide)

/-- A control that is written has one tag, which tells its kind. -/
theorem split?_toValue (tag : Value → Option Kind) {control : Control}
    (h : tag (.string control.kind.tag) = some control.kind) :
    split? tag control.toValue = some (control.kind, .members (apart control.members)) := by
  -- the tag is the first member, and no other has its key
  have hTags : (control.members.filter fun member => member.1 = "type") =
      [tagMember control.kind] := by
    obtain ⟨others, hMembers, hOthers⟩ := exists_members_eq_cons control
    have hFirst : decide ((tagMember control.kind).1 = "type") = true := rfl
    rw [hMembers, List.filter_cons, if_pos hFirst,
      List.filter_eq_nil_iff.2 fun member hMember => by simpa using hOthers member hMember]
  rw [toValue_eq_object, split?, kindAmong, hTags]
  exact congrArg (Option.map _) h

/-- The tag of a kind is read as the kind. -/
theorem kindOfTag_tag (kind : Kind) : kindOfTag kind.tag = .ok kind := by
  rw [kindOfTag, Kind.ofTag?_tag]

/-- A normal control that is written is read again, where there is room for its text. -/
theorem ofValue_toValue {control : Control} {room : Nat} (hDepth : control.toValue.depth ≤ room)
    (h : ∀ c ∈ control.within, c.IsNormal) : ofValue room control.toValue = .ok control := by
  induction control using inductionOn generalizing room with
  | step control ih =>
    cases room with
    | zero =>
      -- every control opens a bracket
      rw [toValue_eq_object] at hDepth
      exact absurd hDepth (Value.not_depth_object_le_zero _)
    | succ room =>
      have hTag : (kindOfValue (.string control.kind.tag)).toOption = some control.kind :=
        toOption_eq_some_iff.2 (kindOfTag_tag control.kind)
      have hInner : ∀ d ∈ control.inner, ofValue room d.toValue = .ok d := fun d hd =>
        ih d hd (depth_toValue_of_mem_inner hDepth hd) fun c hc =>
          h c (within_subset_of_mem_inner hd hc)
      have hBody := ofBody_members (h control (mem_within control)) hInner
      rw [← toOption_eq_some_iff, toOption_ofValue,
        split?_toValue (fun v => (kindOfValue v).toOption) hTag]
      exact toOption_eq_some_iff.2 hBody

/-- A normal control in a text is read again. -/
theorem inText_toValue {control : Control} {room : Nat} (hDepth : control.toValue.depth ≤ room)
    (h : ∀ c ∈ control.within, c.IsNormal) : inText room control.toValue = .ok control := by
  cases room with
  | zero =>
    rw [toValue_eq_object] at hDepth
    exact absurd hDepth (Value.not_depth_object_le_zero _)
  | succ room =>
    -- in a text only the tag is read in another way, and what is inside as anywhere else
    have hTag : (kindOfText (.string control.kind.tag)).toOption = some control.kind :=
      toOption_eq_some_iff.2 (kindOfTag_tag control.kind)
    have hInner : ∀ d ∈ control.inner, ofValue room d.toValue = .ok d := fun d hd =>
      ofValue_toValue (depth_toValue_of_mem_inner hDepth hd) fun c hc =>
        h c (within_subset_of_mem_inner hd hc)
    have hBody := ofBody_members (h control (mem_within control)) hInner
    rw [← toOption_eq_some_iff, toOption_inText,
      split?_toValue (fun v => (kindOfText v).toOption) hTag]
    exact toOption_eq_some_iff.2 hBody

end Control

/-! ## What survives -/

/-- Texts hold no number that could be lost. -/
theorem LocalizedText.survives_toValue (t : LocalizedText) : t.toValue.Survives :=
  Value.survives_object fun member hMember => by
    obtain ⟨entry, -, rfl⟩ := List.mem_map.1 hMember
    exact Value.survives_string entry.2

/-- Bounds survive if both of their numbers do. -/
theorem Bounds.survives_toValue {b : Bounds} (h : Json.Survives b.min ∧ Json.Survives b.max) :
    b.toValue.Survives :=
  Value.survives_object <| List.forall_mem_cons.2 ⟨Value.survives_float h.1,
    List.forall_mem_singleton.2 (Value.survives_float h.2)⟩

theorem Choice.survives_toValue (c : Choice) : c.toValue.Survives :=
  Value.survives_object <| List.forall_mem_cons.2 ⟨c.text.survives_toValue,
    List.forall_mem_singleton.2 (Value.survives_string c.value)⟩

/-- A member that may be left out survives if its value does. -/
theorem survives_memberOf {α : Type} {key : String} {write : α → Value} {o : Option α}
    (h : ∀ a ∈ o, (write a).Survives) :
    ∀ member ∈ memberOf key (o.map write), member.2.Survives := by
  cases o with
  | none => exact fun _ hMember => absurd hMember List.not_mem_nil
  | some a => exact List.forall_mem_singleton.2 (h a rfl)

/-- A list survives if each of its items does. -/
theorem survives_list {α : Type} {write : α → Value} {as : List α}
    (h : ∀ a ∈ as, (write a).Survives) : (Value.array (as.map write)).Survives :=
  Value.survives_array fun item hItem => by
    obtain ⟨a, ha, rfl⟩ := List.mem_map.1 hItem
    exact h a ha

/-- What every question has holds no number that could be lost. -/
theorem Field.survives_members (field : Field) : ∀ member ∈ field.members, member.2.Survives := by
  simp only [Field.members, List.forall_mem_append, List.forall_mem_cons]
  and_intros
  · exact Value.survives_string _
  · exact survives_memberOf fun t _ => t.survives_toValue
  · exact survives_memberOf fun t _ => t.survives_toValue
  · exact Value.survives_bool _
  · exact Value.survives_bool _
  · exact fun _ hMember => absurd hMember List.not_mem_nil
  · exact survives_memberOf fun s _ => Value.survives_string s
  · exact survives_memberOf fun s _ => Value.survives_string s
  · exact survives_memberOf fun s _ => Value.survives_string s

theorem survives_choiceMember (options : List Choice) :
    ∀ member ∈ choiceMember options, member.2.Survives := by
  rw [choiceMember]
  split_ifs
  · exact fun _ hMember => absurd hMember List.not_mem_nil
  · exact List.forall_mem_singleton.2 (survives_list fun c _ => c.survives_toValue)

/-- What belongs to the kind of a question survives if its bounds do. -/
theorem Input.survives_members {input : Input}
    (h : ∀ b ∈ input.bounds?, Json.Survives b.min ∧ Json.Survives b.max) :
    ∀ member ∈ input.members, member.2.Survives := by
  cases input with
  | text length => exact survives_memberOf fun b hb => Bounds.survives_toValue (h b hb)
  | numeric kind range =>
    exact List.forall_mem_cons.2 ⟨Value.survives_string _,
      survives_memberOf fun b hb => Bounds.survives_toValue (h b hb)⟩
  | date | location => exact fun _ hMember => absurd hMember List.not_mem_nil
  | media kind => exact List.forall_mem_singleton.2 (Value.survives_string _)
  | selectOne options | selectMany options => exact survives_choiceMember options

namespace Control

/-- A control survives when the bounds in it do, at any depth. -/
theorem survives_toValue {control : Control} (h : ∀ c ∈ control.within, ∀ b ∈ c.bounds?,
    Json.Survives b.min ∧ Json.Survives b.max) : control.toValue.Survives := by
  induction control using inductionOn with
  | step control ih =>
    -- only bounds hold doubles, and all else survives
    have hInner : ∀ d ∈ control.inner, d.toValue.Survives := fun d hd =>
      ih d hd fun c hc => h c (within_subset_of_mem_inner hd hc)
    rw [toValue_eq_object]
    refine Value.survives_object ?_
    cases control with
    | group name label children =>
      simp only [members, List.cons_append, List.forall_mem_append, List.forall_mem_cons]
      and_intros
      · exact Value.survives_string _
      · exact Value.survives_string _
      · exact survives_memberOf fun t _ => t.survives_toValue
      · exact survives_list hInner
      · exact fun _ hMember => absurd hMember List.not_mem_nil
    | branch name arms =>
      have hArms : ∀ arm ∈ arms, (Value.object (armMembers arm)).Survives := fun arm hArm => by
        have hChildren : (Value.array (arm.children.map toValue)).Survives :=
          survives_list fun c hc => hInner c (List.mem_flatMap.2 ⟨arm, hArm, hc⟩)
        refine Value.survives_object (List.forall_mem_append.2
          ⟨?_, List.forall_mem_singleton.2 hChildren⟩)
        split_ifs
        · exact fun _ hMember => absurd hMember List.not_mem_nil
        · exact List.forall_mem_singleton.2 (survives_list fun s _ => Value.survives_string s)
      simp only [members, List.cons_append, List.forall_mem_append, List.forall_mem_cons]
      and_intros
      · exact Value.survives_string _
      · exact survives_memberOf fun s _ => Value.survives_string s
      · exact survives_list hArms
      · exact fun _ hMember => absurd hMember List.not_mem_nil
    | question field input =>
      have hBounds := h (question field input) (mem_within _)
      rw [bounds?_question] at hBounds
      exact List.forall_mem_cons.2 ⟨Value.survives_string _, List.forall_mem_append.2
        ⟨field.survives_members, Input.survives_members hBounds⟩⟩

end Control

/-! ## Forms -/

namespace Form

/-- Nothing in a form is set to what counts as not set. -/
def IsNormal (form : Form) : Prop :=
  ∀ c ∈ Control.withinAll form.controls, c.IsNormal

/-- The bounds in a form are read again from the numerals that they are written as. -/
def BoundsSurvive (form : Form) : Prop :=
  ∀ c ∈ Control.withinAll form.controls, ∀ b ∈ c.bounds?,
    Json.Survives b.min ∧ Json.Survives b.max

variable {form : Form}

/-- The members of a form as an object. -/
def objectMembers (form : Form) : List (String × Value) :=
  [("title", .string form.title), ("controls", .array (form.controls.map Control.toValue))]

/-- A form is written as an object of its members. -/
theorem toValue_eq_object (form : Form) : form.toValue = .object form.objectMembers := by
  rw [toValue, Control.toValues_eq_map]
  rfl

/-- What is within a control of a form is within the form. -/
theorem mem_withinAll {c d : Control} (hd : d ∈ form.controls) (hc : c ∈ d.within) :
    c ∈ Control.withinAll form.controls := by
  rw [Control.withinAll_eq_flatMap]
  exact List.mem_flatMap.2 ⟨d, hd, hc⟩

/-- A normal form is read again from its value. -/
theorem ofValue_toValue (hNormal : form.IsNormal) {room : Nat}
    (hDepth : form.toValue.depth ≤ room) : ofValue room form.toValue = .ok form := by
  rw [toValue_eq_object] at hDepth ⊢
  cases room with
  | zero => exact absurd hDepth (Value.not_depth_object_le_zero _)
  | succ room =>
    have hArray : (Value.array (form.controls.map Control.toValue)).depth ≤ room :=
      Value.depth_object_le_iff.1 hDepth ("controls", _) (by simp [objectMembers])
    -- the list of controls opens a bracket of its own
    obtain ⟨inner, rfl⟩ : ∃ inner, room = inner + 1 := by
      cases room with
      | zero => exact absurd hArray (Value.not_depth_array_le_zero _)
      | succ inner => exact ⟨inner, rfl⟩
    have hControls : Value.listOf (Control.inText inner)
        (.array (form.controls.map Control.toValue)) = .ok form.controls :=
      listOf_map fun c hc => Control.inText_toValue
        (Value.depth_array_le_iff.1 hArray c.toValue (List.mem_map_of_mem hc))
        fun d hd => hNormal d (mem_withinAll hc hd)
    have hTitle : Value.text (.string form.title) = .ok form.title := rfl
    have hTitleMember : Json.underKeys ["title"] form.objectMembers = [.string form.title] := rfl
    have hControlsMember : Json.underKeys ["controls"] form.objectMembers =
        [.array (form.controls.map Control.toValue)] := rfl
    rw [ofValue, Value.recordOf, ← toOption_eq_some_iff,
      (isLawful_valueRecord (inner + 1)).toOption_recordOfMembers]
    simp only [Record.assemble, valueRecord, List.foldlM_cons, List.foldlM_nil,
      Slot.contents_optional]
    rw [hTitleMember, hControlsMember]
    simp only [Slot.take_singleton _ hTitle, Nat.add_sub_cancel, Slot.take_singleton _ hControls,
      Option.bind_eq_bind, Option.bind_some]
    rfl

/-- The value of a form is read again from its text. -/
theorem readText_compact (hBounds : form.BoundsSurvive)
    (hDepth : form.toValue.depth ≤ Json.maxRoom) :
    Json.readText Tree.value form.toValue.compact = .ok form.toValue := by
  have hControls : (Value.array (form.controls.map Control.toValue)).Survives :=
    survives_list fun c hc => Control.survives_toValue fun d hd => hBounds d (mem_withinAll hc hd)
  have hForm : form.toValue.Survives := by
    rw [toValue_eq_object]
    exact Value.survives_object <| List.forall_mem_cons.2 ⟨Value.survives_string _,
      List.forall_mem_singleton.2 hControls⟩
  rw [Value.compact, Json.readText_print]
  exact hForm Json.maxRoom hDepth

/-- A normal form is read again from its text. -/
theorem ofJson_compact (hNormal : form.IsNormal) (hBounds : form.BoundsSurvive)
    (hDepth : form.toValue.depth ≤ Json.maxRoom) : ofJson form.toValue.compact = .ok form := by
  rw [← toOption_eq_some_iff, toOption_ofJson (readText_compact hBounds hDepth),
    ofValue_toValue hNormal hDepth]
  rfl

/-- Writing a normal form and reading it again gives the form, so that no other normal form is
written alike. The bounds in the form must be read again from their numerals, and its text may open
no more brackets inside one another than a reader follows. -/
theorem lossless_of_isNormal (hNormal : form.IsNormal) (hBounds : form.BoundsSurvive)
    (hDepth : form.toValue.depth ≤ Json.maxRoom) :
    ofJson form.toValue.compact = .ok form ∧
      ∀ other : Form, other.IsNormal → other.BoundsSurvive →
        other.toValue.depth ≤ Json.maxRoom → other.toValue.compact = form.toValue.compact →
          other = form := by
  have hRead : ofJson form.toValue.compact = .ok form := ofJson_compact hNormal hBounds hDepth
  refine ⟨hRead, fun other hOther hOtherBounds hOtherDepth hAlike => ?_⟩
  -- both forms are what is read from one text
  have hReadOther := ofJson_compact hOther hOtherBounds hOtherDepth
  rw [hAlike, hRead] at hReadOther
  exact (Except.ok.inj hReadOther).symm

/-- A label in two languages, of which one says nothing. -/
def halfLabel : LocalizedText :=
  .ofList [("fr", ""), ("en", "Size \"é\"")]

/-- A question with bounds. -/
def sizeQuestion : Control :=
  .question { Field.named "size" with relevance := some "a < 9" } (.text (some ⟨1.5, 9.25⟩))

/-- A form with a group, a branch and questions, one of them with bounds. -/
def layered : Form where
  title := "Layered"
  controls := [
    .group "g" (some halfLabel) [
      .branch (some "b") [
        ⟨["a > 1"], [sizeQuestion]⟩,
        ⟨[], []⟩]],
    .question { Field.named "pick" with hint := some halfLabel } (.selectOne [⟨.empty, "y"⟩])]

/-- A form with a group, a branch and bounds is read again. -/
theorem lossless_of_isNormal_layered :
    layered.IsNormal ∧ layered.BoundsSurvive ∧ layered.toValue.depth ≤ Json.maxRoom ∧
      ofJson layered.toValue.compact = .ok layered := by
  have hSays : halfLabel.SaysSomething := ⟨"en", by decide +kernel⟩
  have hWithin : Control.withinAll layered.controls =
      [layered.controls[0], .branch (some "b") [⟨["a > 1"], [sizeQuestion]⟩, ⟨[], []⟩],
        sizeQuestion, layered.controls[1]] := rfl
  have hNormal : layered.IsNormal := by
    rw [IsNormal, hWithin]
    simp only [List.forall_mem_cons]
    refine ⟨?_, ?_, ⟨?_, ?_, ?_, ?_, ?_⟩, ⟨?_, ?_, ?_, ?_, ?_⟩, List.forall_mem_nil _⟩
    all_goals rintro _ ⟨⟩
    all_goals first | exact hSays | decide +kernel
  have hSurvives : Json.Survives 1.5 ∧ Json.Survives 9.25 :=
    ⟨⟨by decide +kernel, toOption_eq_some_iff.1 (by decide +kernel)⟩,
      by decide +kernel, toOption_eq_some_iff.1 (by decide +kernel)⟩
  have hBounds : layered.BoundsSurvive := by
    rw [BoundsSurvive, hWithin]
    simp only [List.forall_mem_cons]
    refine ⟨nofun, nofun, ?_, nofun, fun _ h => absurd h List.not_mem_nil⟩
    rintro _ ⟨⟩
    exact hSurvives
  have hDepth : layered.toValue.depth ≤ Json.maxRoom := by decide +kernel
  exact ⟨hNormal, hBounds, hDepth, (lossless_of_isNormal hNormal hBounds hDepth).1⟩

end Form

end FormDesign
