import FormDesign.Control.Write
import FormDesign.Proofs.Control.Reading
import FormDesign.Proofs.Outline.Wordings

/-!
# Normal forms

A control is normal when nothing that it has is set to what counts as not set: a label or a hint
says something, and an expression, a path or the name of a branch is not blank. What a normal
question has is read again from the members that it is written as, although they are shared among
two records and leave out what is not set.

## Main definitions

* `Control.within`: a control and the controls in it, at any depth;
* `Control.IsNormal`: nothing that a control has itself is set to what counts as not set.

## Main results

* `Control.inductionOn`: what holds of a control when it holds of those right inside holds of every
  control;
* `Control.ofBody_questionMembers`: a normal question is read again.
-/

namespace FormDesign

open Json (Value Tree Fault Record Slot)

namespace Control

/-! ## Controls at any depth -/

mutual

/-- A control and the controls in it, at any depth. -/
def within : Control → List Control
  | group name label children => .group name label children :: withinAll children
  | branch name arms => .branch name arms :: withinArms arms
  | question field input => [.question field input]

/-- Controls and the controls in them. -/
def withinAll : List Control → List Control
  | [] => []
  | control :: controls => within control ++ withinAll controls

/-- The controls in arms. -/
def withinArms : List (Arm Control) → List Control
  | [] => []
  | ⟨_, children⟩ :: arms => withinAll children ++ withinArms arms

end

theorem withinAll_eq_flatMap (controls : List Control) :
    withinAll controls = controls.flatMap within := by
  induction controls with
  | nil => rfl
  | cons control controls ih => rw [withinAll, ih, List.flatMap_cons]

theorem withinArms_eq_flatMap (arms : List (Arm Control)) :
    withinArms arms = arms.flatMap fun arm => arm.children.flatMap within := by
  induction arms with
  | nil => rfl
  | cons arm arms ih => rw [withinArms, withinAll_eq_flatMap, ih, List.flatMap_cons]

/-- The controls right inside a control. -/
def inner : Control → List Control
  | group _ _ children => children
  | branch _ arms => arms.flatMap Arm.children
  | question _ _ => []

/-- A control is within itself. -/
theorem mem_within (control : Control) : control ∈ control.within := by
  cases control <;> exact List.mem_cons_self ..

/-- What is within an inner control is within the control around it. -/
theorem within_subset_of_mem_inner {control d : Control} (h : d ∈ control.inner) :
    d.within ⊆ control.within := by
  intro e he
  cases control with
  | group name label children =>
    rw [within, withinAll_eq_flatMap]
    exact List.mem_cons_of_mem _ (List.mem_flatMap.2 ⟨d, h, he⟩)
  | branch name arms =>
    obtain ⟨arm, hArm, hChild⟩ := List.mem_flatMap.1 h
    rw [within, withinArms_eq_flatMap]
    exact List.mem_cons_of_mem _
      (List.mem_flatMap.2 ⟨arm, hArm, List.mem_flatMap.2 ⟨d, hChild, he⟩⟩)
  | question field input => exact absurd h List.not_mem_nil

/-- Induction on controls, with the hypothesis for the controls right inside. -/
@[elab_as_elim]
theorem inductionOn {P : Control → Prop} (control : Control)
    (step : ∀ c : Control, (∀ d ∈ c.inner, P d) → P c) : P control :=
  Control.rec (motive_1 := P) (motive_2 := fun controls => ∀ c ∈ controls, P c)
    (motive_3 := fun arms => ∀ c ∈ arms.flatMap Arm.children, P c)
    (motive_4 := fun arm => ∀ c ∈ arm.children, P c)
    (fun name label children h => step (.group name label children) h)
    (fun name arms h => step (.branch name arms) h)
    (fun field input => step (.question field input) fun _ h => absurd h List.not_mem_nil)
    (fun _ h => absurd h List.not_mem_nil)
    (fun _ _ hFirst hOthers c h => (List.mem_cons.1 h).elim (fun e => e ▸ hFirst) (hOthers c))
    (fun _ h => absurd h List.not_mem_nil)
    (fun _ _ hFirst hOthers c h => (List.mem_append.1 h).elim (hFirst c) (hOthers c))
    (fun _ _ h => h) control

end Control

/-! ## Normal controls -/

/-- A text that says something in some language. -/
def LocalizedText.SaysSomething (t : LocalizedText) : Prop :=
  ∃ language, t.get language ≠ ""

/-- Nothing in a field is set to what counts as not set. -/
structure Field.IsNormal (field : Field) : Prop where
  label : ∀ t ∈ field.label, t.SaysSomething
  hint : ∀ t ∈ field.hint, t.SaysSomething
  relevance : ∀ s ∈ field.relevance, Text.isBlank s = false
  constraint : ∀ s ∈ field.constraint, Text.isBlank s = false
  destination : ∀ s ∈ field.destination, Text.isBlank s = false

/-- Nothing that a control has itself is set to what counts as not set. -/
def Control.IsNormal : Control → Prop
  | group _ label _ => ∀ t ∈ label, t.SaysSomething
  | branch name _ => ∀ s ∈ name, Text.isBlank s = false
  | question field _ => field.IsNormal

/-! ## Properties -/

/-- An entry whose key is behind all others is put behind them. -/
theorem insertEntry_of_forall_lt {key : String} {entries : List (String × String)}
    (h : ∀ entry ∈ entries, entry.1 < key) (value : String) :
    insertEntry key value entries = entries ++ [(key, value)] := by
  induction entries with
  | nil => rfl
  | cons entry entries ih =>
    obtain ⟨hFirst, hOthers⟩ := List.forall_mem_cons.1 h
    -- the new entry neither comes before the first one nor replaces it
    have hNotLt : ¬ key < entry.1 := fun hLt => String.lt_irrefl _ (String.lt_trans hLt hFirst)
    have hNe : ¬ key = entry.1 := fun hEq => String.lt_irrefl _ (hEq ▸ hFirst)
    rw [insertEntry, if_neg hNotLt, if_neg hNe, ih hOthers, List.cons_append]

namespace LocalizedText

/-- Texts are told apart by their entries. -/
theorem eq_of_entries_eq {a b : LocalizedText} (h : a.entries = b.entries) : a = b := by
  cases a
  cases b
  simpa using h

/-- Entries that come later in the order are put behind the others. -/
theorem entries_foldl_insert {pairs : List (String × String)} {t : LocalizedText}
    (h : (t.entries ++ pairs).Pairwise fun a b => a.1 < b.1) :
    (pairs.foldl (fun t pair => t.insert pair.1 pair.2) t).entries = t.entries ++ pairs := by
  induction pairs generalizing t with
  | nil => exact (List.append_nil _).symm
  | cons pair pairs ih =>
    have hLast : ∀ entry ∈ t.entries, entry.1 < pair.1 := fun entry hEntry =>
      (List.pairwise_append.1 h).2.2 entry hEntry pair (List.mem_cons_self ..)
    have hInsert : (t.insert pair.1 pair.2).entries = t.entries ++ [pair] :=
      insertEntry_of_forall_lt hLast pair.2
    have hRest : t.entries ++ pair :: pairs = (t.insert pair.1 pair.2).entries ++ pairs := by
      rw [hInsert, List.append_assoc, List.singleton_append]
    rw [hRest] at h ⊢
    exact ih h

/-- The entry of a localized text that a member is, if it is a text. -/
def entry? (member : String × Value) : Option (String × String) :=
  (Value.text member.2).toOption.map fun text => (member.1, text)

/-- An object is read as texts entry by entry. -/
theorem ofValue?_object (members : List (String × Value)) :
    ofValue? (.object members) = (members.mapM entry?).map ofList := by
  have hEntry : ∀ f : String × Value → Option (String × String),
      (∀ member, f member = entry? member) →
        ofList <$> members.mapM f = (members.mapM entry?).map ofList := fun f hf => by
    rw [funext hf]
    rfl
  refine hEntry _ fun member => ?_
  obtain ⟨language, v⟩ := member
  cases v <;> rfl

/-- A localized text is read again from its entries. -/
theorem ofValue?_toValue (t : LocalizedText) : ofValue? t.toValue = some t := by
  have hEntries : ∀ entries : List (String × String),
      (entries.map fun entry => (entry.1, Value.string entry.2)).mapM entry? =
        some entries := by
    intro entries
    induction entries with
    | nil => rfl
    | cons entry entries ih =>
      rw [List.map_cons, List.mapM_cons, ih]
      rfl
  -- the entries ascend, so that each is put behind those before it
  have hList : ofList t.entries = t := eq_of_entries_eq (entries_foldl_insert t.ascending)
  rw [toValue, ofValue?_object, hEntries, Option.map_some, hList]

end LocalizedText

/-- A label or hint that is an object is read as texts, and is not set when they are blank. -/
theorem readLabel_object (members : List (String × Value)) :
    readLabel (.object members) = match LocalizedText.ofValue? (.object members) with
      | some t => .ok (if t.isBlank then none else some t)
      | none => .error shapeless := rfl

/-- A label or hint that says something is read again. -/
theorem readLabel_toValue {t : LocalizedText} (h : t.SaysSomething) :
    readLabel t.toValue = .ok (some t) := by
  have hTexts : LocalizedText.ofValue? t.toValue = some t := LocalizedText.ofValue?_toValue t
  rw [LocalizedText.toValue] at hTexts ⊢
  rw [readLabel_object, hTexts]
  dsimp only
  rw [LocalizedText.isBlank_eq_false_iff.2 h]
  rfl

/-- An expression, a path or a name that is not blank is read again. -/
theorem readUnlessBlank_string {s : String} (h : Text.isBlank s = false) :
    readUnlessBlank (.string s) = .ok (some s) := by
  change (.ok (if Text.isBlank s then none else some s) : Except Fault (Option String)) = _
  rw [h]
  rfl

/-- Bounds are read again. -/
theorem Bounds.ofValue?_toValue (b : Bounds) : Bounds.ofValue? b.toValue = some b := rfl

theorem readBounds_toValue (b : Bounds) : readBounds b.toValue = .ok (some b) := rfl

/-- A choice is read again. -/
theorem Choice.recordOf_toValue (c : Choice) :
    Value.recordOf Choice.record c.toValue = .ok c := by
  have hText : Json.underKeys ["text"] [("text", c.text.toValue), ("val", .string c.value)] =
      [c.text.toValue] := rfl
  have hValue : Json.underKeys ["val", "value"]
      [("text", c.text.toValue), ("val", .string c.value)] = [.string c.value] := rfl
  rw [toValue, Value.recordOf, ← toOption_eq_some_iff,
    Choice.isLawful_record.toOption_recordOfMembers]
  simp only [Record.assemble, Choice.record, List.foldlM_cons, List.foldlM_nil,
    Slot.contents_optional, Slot.contents_mandatory, hText, hValue]
  rw [Slot.take_singleton _ (by rw [LocalizedText.ofValue?_toValue])]
  rfl

/-- A list is read again when its items are. -/
theorem listOf_map {α : Type} {read : Value → Except Fault α} {write : α → Value} {as : List α}
    (h : ∀ a ∈ as, read (write a) = .ok a) :
    Value.listOf read (.array (as.map write)) = .ok as := by
  have hItems : (as.map write).mapM read = .ok (as.map id) := by
    rw [List.mapM_map]
    exact mapM_eq_ok_map h
  rw [Value.listOf, hItems, List.map_id]

/-- Choices that are written are read again. -/
theorem choicesOfValue?_map (options : List Choice) :
    choicesOfValue? (.array (options.map Choice.toValue)) = some options := by
  rw [choicesOfValue?, listOf_map fun c _ => c.recordOf_toValue]
  rfl

/-! ## Questions -/

/-- A member that may be left out is found under its own key only. -/
@[simp]
theorem underKeys_memberOf (keys : List String) (key : String) (v : Option Value) :
    Json.underKeys keys (memberOf key v) = if key ∈ keys then v.toList else [] := by
  cases v with
  | none => simp [memberOf, Json.underKeys]
  | some v => rw [memberOf, Json.underKeys_cons]; rfl

/-- A member that may be left out has its own key if it is there. -/
theorem key_of_mem_memberOf {key : String} {v : Option Value} {member : String × Value}
    (h : member ∈ memberOf key v) : member.1 = key := by
  cases v with
  | none => exact absurd h List.not_mem_nil
  | some v => exact congrArg Prod.fst (List.mem_singleton.1 h)

/-- The keys of what every question has. -/
theorem Field.key_mem {field : Field} {member : String × Value} (h : member ∈ field.members) :
    member.1 ∈ ["name", "label", "hint", "required", "readOnly", "relevance", "constraint",
      "destination"] := by
  simp only [Field.members, List.cons_append, List.mem_cons, List.mem_append, List.not_mem_nil,
    or_false] at h
  -- in the order in which they are written
  rcases h with rfl | ((((hLabel | hHint) | rfl | rfl) | hRelevance) | hConstraint) | hDestination
  · exact List.mem_of_elem_eq_true rfl
  · rw [key_of_mem_memberOf hLabel]
    decide
  · rw [key_of_mem_memberOf hHint]
    decide
  · exact List.mem_of_elem_eq_true rfl
  · exact List.mem_of_elem_eq_true rfl
  · rw [key_of_mem_memberOf hRelevance]
    decide
  · rw [key_of_mem_memberOf hConstraint]
    decide
  · rw [key_of_mem_memberOf hDestination]
    decide

/-- Choices have one key. -/
theorem key_of_mem_choiceMember {options : List Choice} {member : String × Value}
    (h : member ∈ choiceMember options) : member.1 = "options" := by
  rw [choiceMember] at h
  split_ifs at h
  · exact absurd h List.not_mem_nil
  · exact congrArg Prod.fst (List.mem_singleton.1 h)

/-- The keys of what belongs to the kinds of questions. -/
theorem Input.key_mem {input : Input} {member : String × Value} (h : member ∈ input.members) :
    member.1 ∈ ["length", "kind", "range", "options"] := by
  cases input with
  | text length =>
    rw [key_of_mem_memberOf h]
    decide
  | numeric kind range =>
    rcases List.mem_cons.1 h with rfl | h
    · exact List.mem_of_elem_eq_true rfl
    · rw [key_of_mem_memberOf h]
      decide
  | date | location => exact absurd h List.not_mem_nil
  | media kind =>
    rw [List.mem_singleton.1 h]
    exact List.mem_of_elem_eq_true rfl
  | selectOne options | selectMany options =>
    rw [key_of_mem_choiceMember h]
    decide

/-- The members of a question: its tag, what every question has, and what belongs to its kind. -/
def questionMembers (field : Field) (input : Input) : List (String × Value) :=
  Control.tagMember input.kind :: field.members ++ input.members

/-- What every question has is not looked for in what belongs to its kind. -/
theorem underKeys_field {keys : List String} (hTag : "type" ∉ keys)
    (hInput : ∀ key ∈ ["length", "kind", "range", "options"], key ∉ keys) (field : Field)
    (input : Input) :
    Json.underKeys keys (questionMembers field input) = Json.underKeys keys field.members := by
  have hNone : Json.underKeys keys input.members = [] :=
    Json.underKeys_eq_nil fun member hMember => hInput _ (Input.key_mem hMember)
  rw [questionMembers, Json.underKeys_append, hNone, List.append_nil, Control.tagMember,
    Json.underKeys_cons, if_neg hTag]

/-- What belongs to the kind of a question is not looked for in what every question has. -/
theorem underKeys_input {keys : List String} (hTag : "type" ∉ keys)
    (hField : ∀ key ∈ ["name", "label", "hint", "required", "readOnly", "relevance", "constraint",
      "destination"], key ∉ keys) (field : Field) (input : Input) :
    Json.underKeys keys (questionMembers field input) = Json.underKeys keys input.members := by
  have hNone : Json.underKeys keys field.members = [] :=
    Json.underKeys_eq_nil fun member hMember => hField _ (Field.key_mem hMember)
  rw [questionMembers, Json.underKeys_append, Control.tagMember, Json.underKeys_cons,
    if_neg hTag, hNone, List.nil_append]

/-- What every question has is read again. -/
theorem Field.assemble_members {field : Field} (h : field.IsNormal) (input : Input) :
    Field.record.assemble (fun s => s.contents (questionMembers field input)) = some field := by
  have hText : ∀ s, Value.text (.string s) = .ok s := fun _ => rfl
  have hFlag : ∀ b, readOrDefault flagOfValue? false (.bool b) = .ok b := fun _ => rfl
  obtain ⟨name, label, hint, required, readOnly, relevance, constraint, destination⟩ := field
  have hLabelRead : ∀ t ∈ label, readLabel t.toValue = .ok (some t) :=
    fun t ht => readLabel_toValue (h.label t ht)
  have hHintRead : ∀ t ∈ hint, readLabel t.toValue = .ok (some t) :=
    fun t ht => readLabel_toValue (h.hint t ht)
  have hRelevanceRead : ∀ s ∈ relevance, readUnlessBlank (.string s) = .ok (some s) :=
    fun s hs => readUnlessBlank_string (h.relevance s hs)
  have hConstraintRead : ∀ s ∈ constraint, readUnlessBlank (.string s) = .ok (some s) :=
    fun s hs => readUnlessBlank_string (h.constraint s hs)
  have hDestinationRead : ∀ s ∈ destination, readUnlessBlank (.string s) = .ok (some s) :=
    fun s hs => readUnlessBlank_string (h.destination s hs)
  simp only [Record.assemble, Field.record, List.foldlM_cons, List.foldlM_nil,
    Slot.contents_optional]
  -- the members of the kind of the question say nothing of these properties
  simp (disch := decide) only [underKeys_field]
  -- and among the others there is one for each property that is set
  simp only [members, List.cons_append, List.append_assoc, List.nil_append, Json.underKeys_cons,
    List.mem_cons, String.reduceEq, List.not_mem_nil, or_self, or_false, if_true, if_false,
    Json.underKeys_append, underKeys_memberOf, List.append_nil]
  simp only [Slot.take_singleton _ (hText name), Slot.take_toList _ hLabelRead,
    Slot.take_toList _ hHintRead, Slot.take_singleton _ (hFlag required),
    Slot.take_singleton _ (hFlag readOnly), Slot.take_toList _ hRelevanceRead,
    Slot.take_toList _ hConstraintRead, Slot.take_toList _ hDestinationRead,
    Option.bind_eq_bind, Option.bind_some]
  -- what is set has been put in, and what is not set was not set before
  cases label <;> cases hint <;> cases relevance <;> cases constraint <;> cases destination <;> rfl

/-! ## What belongs to a kind -/

section

variable (field : Field)

theorem assemble_textRecord (length : Option Bounds) :
    (textRecord.assemble fun s => s.contents (questionMembers field (.text length))) =
      some length := by
  have hLength : Json.underKeys ["length", "Length"] (Input.text length).members =
      (length.map Bounds.toValue).toList := by
    simp [Input.members]
  simp only [Record.assemble, textRecord, List.foldlM_cons, List.foldlM_nil,
    Slot.contents_optional]
  rw [underKeys_input (by decide) (by decide), hLength,
    Slot.take_toList _ fun b _ => readBounds_toValue b]
  cases length <;> rfl

theorem assemble_numericRecord (kind : NumericKind) (range : Option Bounds) :
    (numericRecord.assemble fun s => s.contents (questionMembers field (.numeric kind range))) =
      some (kind, range) := by
  have hKind : Json.underKeys ["kind", "Kind"] (Input.numeric kind range).members =
      [.string kind.name] := by
    simp [Input.members]
  have hRange : Json.underKeys ["range", "Range"] (Input.numeric kind range).members =
      (range.map Bounds.toValue).toList := by
    simp [Input.members]
  have hName : readOrDefault NumericKind.ofValue? .integer (.string kind.name) = .ok kind := by
    cases kind <;> rfl
  simp only [Record.assemble, numericRecord, List.foldlM_cons, List.foldlM_nil,
    Slot.contents_optional]
  simp (disch := decide) only [underKeys_input, hKind, hRange]
  simp only [Slot.take_singleton _ hName, Slot.take_toList _ fun b _ => readBounds_toValue b,
    Option.bind_eq_bind, Option.bind_some]
  cases range <;> rfl

theorem assemble_mediaRecord (kind : MediaKind) :
    (mediaRecord.assemble fun s => s.contents (questionMembers field (.media kind))) =
      some kind := by
  have hKind : Json.underKeys ["kind", "Kind"] (Input.media kind).members =
      [.string kind.name] := rfl
  have hName : Value.choice Value.isEmptyObject MediaKind.ofName (.string kind.name) =
      .ok kind := by
    cases kind <;> rfl
  simp only [Record.assemble, mediaRecord, List.foldlM_cons, List.foldlM_nil,
    Slot.contents_mandatory]
  rw [underKeys_input (by decide) (by decide), hKind, Slot.take_mandatory _ hName]
  rfl

/-- The choices of a selection are read again, also where there are none. -/
theorem assemble_selectRecord {input : Input} {options : List Choice}
    (h : input.members = choiceMember options) :
    (selectRecord.assemble fun s => s.contents (questionMembers field input)) = some options := by
  have hRead : readOrDefault choicesOfValue? [] (.array (options.map Choice.toValue)) =
      .ok options :=
    readOrDefault.eq_2 choicesOfValue? [] (.array (options.map Choice.toValue)) options
      (fun h => nomatch h) (choicesOfValue?_map options)
  simp only [Record.assemble, selectRecord, List.foldlM_cons, List.foldlM_nil,
    Slot.contents_optional]
  rw [underKeys_input (by decide) (by decide), h, choiceMember]
  cases options with
  | nil =>
    -- where there are no choices nothing is written, and what is not said is read as no choices
    rfl
  | cons first options =>
    have hOptions : Json.underKeys ["options", "Options"]
        [("options", Value.array ((first :: options).map Choice.toValue))] =
        [.array ((first :: options).map Choice.toValue)] := rfl
    rw [List.isEmpty_cons, if_neg Bool.false_ne_true, hOptions, Slot.take_singleton _ hRead]
    rfl

end

namespace Control

variable (child : Value → Except Fault Control)

/-- A question is read again from its members. -/
theorem ofBody_questionMembers {field : Field} (h : field.IsNormal) (input : Input) :
    ofBody child input.kind (.members (apart (questionMembers field input))) =
      .ok (.question field input) := by
  have hField := Field.assemble_members h input
  have hDate : (Body.record Field.record (.members (apart (questionMembers field input)))) =
      .ok field := by
    rw [← toOption_eq_some_iff, toOption_record Field.isLawful_record (by decide), hField]
  rw [← toOption_eq_some_iff]
  -- questions about dates and places have no properties of their own
  cases input with
  | text length =>
    refine (toOption_question isLawful_textRecord (by decide) .text _).trans ?_
    rw [assemble_textRecord, hField]
    rfl
  | numeric kind range =>
    refine (toOption_question isLawful_numericRecord (by decide) _ _).trans ?_
    rw [assemble_numericRecord, hField]
    rfl
  | date => exact congrArg _ (congrArg (· >>= _) hDate)
  | location => exact congrArg _ (congrArg (· >>= _) hDate)
  | media kind =>
    refine (toOption_question isLawful_mediaRecord (by decide) .media _).trans ?_
    rw [assemble_mediaRecord, hField]
    rfl
  | selectOne options =>
    refine (toOption_question isLawful_selectRecord (by decide) .selectOne _).trans ?_
    rw [assemble_selectRecord field rfl, hField]
    rfl
  | selectMany options =>
    refine (toOption_question isLawful_selectRecord (by decide) .selectMany _).trans ?_
    rw [assemble_selectRecord field rfl, hField]
    rfl

end Control

end FormDesign
