import FormDesign.Proofs.Control.Normal
import FormDesign.Proofs.Host.Agreement
import FormDesign.Proofs.Form.RoundTrip

/-!
# Options that are written and read

Options that are written as JSON are read again by a host, whatever texts they hold and whatever
the layout. A host reads them in its own way, the text as a whole before any option in it.

## Main results

* `Options.isLawful_record`: the options may be given in any order;
* `Host.optionsOf_print_toValue`: options that are written are read again.
-/

namespace FormDesign

open Json (Value Tree Fault Record Slot)

namespace Options

/-- The members of options as an object. -/
def members (options : Options) : List (String × Value) :=
  [("languages", .array (options.languages.map .string)),
      ("instance_root", .string options.instanceRoot)] ++
    memberOf "form_id" (options.formId.map .string) ++
    [("body_refs", .string options.bodyRefs.name)]

/-- Options are written as an object of their members. -/
theorem toValue_eq_object (options : Options) : options.toValue = .object options.members := by
  rw [toValue, members]
  cases options.formId <;> rfl

/-- The members of options survive being written: they are texts and a list of texts. -/
theorem survives_members (options : Options) : ∀ member ∈ options.members, member.2.Survives := by
  have hLanguages : (Value.array (options.languages.map .string)).Survives :=
    survives_list fun _ _ => Value.survives_string _
  have hId : ∀ member ∈ memberOf "form_id" (options.formId.map .string), member.2.Survives :=
    survives_memberOf fun _ _ => Value.survives_string _
  simp only [members, List.forall_mem_append, List.forall_mem_cons]
  exact ⟨⟨⟨hLanguages, Value.survives_string _, List.forall_mem_nil _⟩, hId⟩,
    Value.survives_string _, List.forall_mem_nil _⟩

theorem depth_members_le (options : Options) : ∀ member ∈ options.members, member.2.depth ≤ 1 := by
  have hLanguages : (Value.array (options.languages.map .string)).depth ≤ 1 :=
    Value.depth_array_le_iff.2 <| List.forall_mem_map.2 fun _ _ => Nat.le_refl 0
  have hId : ∀ member ∈ memberOf "form_id" (options.formId.map .string), member.2.depth ≤ 1 := by
    cases options.formId with
    | none => exact List.forall_mem_nil _
    | some id => exact List.forall_mem_singleton.2 (Nat.zero_le 1)
  simp only [members, List.forall_mem_append, List.forall_mem_cons]
  exact ⟨⟨⟨hLanguages, Nat.zero_le 1, List.forall_mem_nil _⟩, hId⟩, Nat.zero_le 1,
    List.forall_mem_nil _⟩

/-- Options go by different keys and may be given in any order. -/
theorem isLawful_record (refs : Nat → Tree → Except Fault BodyRefs) (room : Nat) :
    (record refs room).IsLawful where
  nodup := by
    change ["languages", "instance_root", "form_id", "body_refs"].Nodup
    decide
  commutes := by
    simp only [record, List.pairwise_cons, List.forall_mem_cons, List.not_mem_nil,
      IsEmpty.forall_iff, implies_true, List.Pairwise.nil, and_true]
    and_intros <;> exact Slot.commutes_of_put rfl rfl (by exact fun _ _ _ => rfl)

end Options

namespace Host

/-- The name of a way to refer is read as the way. -/
theorem readRefs_name (room : Nat) (refs : BodyRefs) :
    readRefs room (.ofValue (.string refs.name)) = .ok refs := by
  rw [readRefs, Value.survives_string refs.name room (Nat.zero_le room), ok_bind]
  cases refs <;> rfl

theorem text_ofValue (s : String) : Tree.text (.ofValue (.string s)) = .ok s := by
  rw [Tree.ofValue_string]
  exact Json.read_ofString s

/-- A list of texts is read again. -/
theorem list_text_map (room : Nat) (texts : List String) :
    Tree.list (fun _ => Tree.text) (room + 1) (.ofValue (.array (texts.map .string))) =
      .ok texts := by
  have hItems : (texts.map fun s => Tree.ofValue (.string s)).mapM Tree.text =
      .ok (texts.map id) := by
    rw [List.mapM_map]
    exact mapM_eq_ok_map fun s _ => text_ofValue s
  rw [Tree.list, Tree.ofValue_array, Tree.listOf, List.map_map]
  refine (congrArg (· >>= _) hItems).trans ?_
  rw [List.map_id]
  rfl

/-- Options are read again as they are written, each member for its own field. -/
theorem recordOf_toValue (room : Nat) (options : Options) :
    (Tree.ofValue options.toValue).recordOf (Options.record readRefs (room + 1)) =
      .ok options := by
  have hLanguages := list_text_map room options.languages
  have hRefs := readRefs_name (room + 1) options.bodyRefs
  have hId : ∀ id ∈ options.formId,
      Tree.orNull Tree.text (.ofValue (.string id)) = .ok (some id) := fun id _ => by
    rw [Tree.ofValue_string]
    exact congrArg (some <$> ·) (Json.read_ofString id)
  have hIdMember : (options.formId.map Value.string).toList.map Tree.ofValue =
      (options.formId.map fun id => Tree.ofValue (.string id)).toList := by
    cases options.formId <;> rfl
  have hKeys : (options.members.map fun member =>
      (Json.StringToken.ofString member.1, Tree.ofValue member.2)).map
        (fun member => (member.1.read, member.2)) =
      (options.members.map fun member => (member.1, Tree.ofValue member.2)).map
        fun member => (.ok member.1, member.2) := by
    simp only [List.map_map, Function.comp_def, Json.read_ofString]
  have hSkip : ∀ member ∈ options.members.map fun member => (member.1, Tree.ofValue member.2),
      (Options.record readRefs (room + 1)).slot? member.1 = none → Tree.skip member.2 = .ok () :=
    List.forall_mem_map.2 fun member hMember _ => Tree.skip_of_value <|
      options.survives_members member hMember 1 (options.depth_members_le member hMember)
  rw [Options.toValue_eq_object, Tree.ofValue_object, Tree.recordOf, hKeys,
    ← toOption_eq_some_iff]
  refine ((Options.isLawful_record readRefs (room + 1)).toOption_keyed hSkip).trans ?_
  simp only [Record.assemble, Options.record, List.foldlM_cons, List.foldlM_nil,
    Slot.contents_optional, Json.underKeys_map, Options.members, Json.underKeys_append,
    Json.underKeys_cons, underKeys_memberOf, List.mem_cons, String.reduceEq, List.not_mem_nil,
    or_self, or_false, if_true, if_false, Json.underKeys_nil, List.append_nil, List.nil_append,
    List.map_cons, List.map_nil]
  rw [hIdMember]
  simp only [Slot.take_singleton _ hLanguages, Slot.take_singleton _ (text_ofValue _),
    Slot.take_toList _ hId, Slot.take_singleton _ hRefs, Option.bind_eq_bind, Option.bind_some]
  -- an identifier has been put in if there is one, and otherwise there was none before
  obtain ⟨languages, instanceRoot, formId, bodyRefs⟩ := options
  cases formId <;> rfl

/-- A host reads options from the tree that they are written as, where there is room for it. -/
theorem readConfig_toValue (room : Nat) (options : Options) :
    readConfig (room + 2) (.ofValue options.toValue) = .ok options := by
  have hRecord := recordOf_toValue room options
  have hWhole : Tree.value (room + 2) (.ofValue options.toValue) = .ok options.toValue := by
    rw [Options.toValue_eq_object]
    refine Value.survives_object options.survives_members _ (Value.depth_object_le_iff.2 ?_)
    exact fun member hMember =>
      Nat.le_trans (options.depth_members_le member hMember) (Nat.succ_le_succ (Nat.zero_le room))
  rw [Options.toValue_eq_object, Tree.ofValue_object] at hRecord hWhole ⊢
  rw [readConfig, hWhole, ok_bind, hRecord]

/-- Options that are written as JSON, in whatever layout, are read again by a host. -/
theorem optionsOf_print_toValue (layout : Json.Layout) (options : Options) :
    optionsOf (options.toValue.print layout) = .ok options := by
  have hRead : readConfig Json.maxRoom (.ofValue options.toValue) = .ok options :=
    readConfig_toValue 125 options
  rw [Options.toValue_eq_object] at hRead ⊢
  rw [optionsOf_print_object, hRead]
  rfl

end Host

end FormDesign
