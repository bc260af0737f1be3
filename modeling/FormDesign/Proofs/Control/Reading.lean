import FormDesign.Control.Read
import FormDesign.Proofs.Json.Text
import FormDesign.Proofs.Json.Whole

/-!
# How controls are read

A control that is written as an object is read in two steps, whatever the order of its members: the
tag tells its kind, of which there must be one, and each property of the kind is read from what the
other members say of it. A control that stands in a text is read as from the value of its tree,
only that its tag must be a text.

## Main definitions

* `Control.kindAmong`, `Control.apart`: the kind that the tag among members tells, and the other
  members;
* `Control.inText`, `Form.ofValue`: a control in a text and a form, read from values.

## Main results

* `Control.toOption_ofValue`: a control is read from its kind and what is left of it;
* `Control.toOption_read`: a control is read from a text as from the value of its tree;
* `Form.toOption_ofJson`: a form is read from a text as from the value of the text.
-/

namespace FormDesign

open Json (Value Tree Fault Record Slot)

/-! ## Records of properties

The fields of each record go by different keys and may be filled in any order. -/

theorem Bounds.isLawful_record : Bounds.record.IsLawful where
  nodup := by decide
  commutes := by
    rw [Bounds.record, List.pairwise_pair]
    exact Slot.commutes_of_put rfl rfl (by exact fun _ _ _ => rfl)

theorem Choice.isLawful_record : Choice.record.IsLawful where
  nodup := by decide
  commutes := by
    rw [Choice.record, List.pairwise_pair]
    exact Slot.commutes_of_put rfl rfl (by exact fun _ _ _ => rfl)

theorem Field.isLawful_record : Field.record.IsLawful where
  nodup := by decide
  commutes := by
    simp only [Field.record, List.pairwise_cons, List.forall_mem_cons, List.not_mem_nil,
      IsEmpty.forall_iff, implies_true, List.Pairwise.nil, and_true]
    and_intros <;> exact Slot.commutes_of_put rfl rfl (by exact fun _ _ _ => rfl)

theorem isLawful_textRecord : textRecord.IsLawful where
  nodup := by decide
  commutes := List.pairwise_singleton ..

theorem isLawful_numericRecord : numericRecord.IsLawful where
  nodup := by decide
  commutes := by
    rw [numericRecord, List.pairwise_pair]
    exact Slot.commutes_of_put rfl rfl (by exact fun _ _ _ => rfl)

theorem isLawful_mediaRecord : mediaRecord.IsLawful where
  nodup := by decide
  commutes := List.pairwise_singleton ..

theorem isLawful_selectRecord : selectRecord.IsLawful where
  nodup := by decide
  commutes := List.pairwise_singleton ..

namespace Control

variable (child : Value → Except Fault Control)

theorem isLawful_groupRecord : (groupRecord child).IsLawful where
  nodup := by
    change ["name", "Name", "label", "Label", "children"].Nodup
    decide
  commutes := by
    simp only [groupRecord, List.pairwise_cons, List.forall_mem_cons, List.not_mem_nil,
      IsEmpty.forall_iff, implies_true, List.Pairwise.nil, and_true]
    and_intros <;> exact Slot.commutes_of_put rfl rfl (by exact fun _ _ _ => rfl)

theorem isLawful_armRecord : (armRecord child).IsLawful where
  nodup := by
    change ["conditions", "children"].Nodup
    decide
  commutes := by
    rw [armRecord, List.pairwise_pair]
    exact Slot.commutes_of_put rfl rfl (by exact fun _ _ _ => rfl)

theorem isLawful_branchRecord : (branchRecord child).IsLawful where
  nodup := by
    change ["name", "Name", "branches"].Nodup
    decide
  commutes := by
    rw [branchRecord, List.pairwise_pair]
    exact Slot.commutes_of_put rfl rfl (by exact fun _ _ _ => rfl)

end Control

/-- The fields of a form go by different keys and may be given in any order. -/
theorem Form.isLawful_record (room : Nat) : (Form.record room).IsLawful where
  nodup := by
    change ["title", "controls"].Nodup
    decide
  commutes := by
    rw [Form.record, List.pairwise_pair]
    exact Slot.commutes_of_put rfl rfl (by exact fun _ _ _ => rfl)

namespace Control

/-! ## Tags -/

/-- The kind that the tag among members tells, if there is one tag. -/
def kindAmong (tag : Value → Option Kind) (members : List (String × Value)) : Option Kind :=
  match members.filter fun member => member.1 = "type" with
  | [member] => tag member.2
  | _ => none

/-- The members apart from the tag. -/
def apart (members : List (String × Value)) : List (String × Value) :=
  members.filter fun member => member.1 ≠ "type"

/-- The kind of a control and what is left of it, given how a tag is read. -/
def split? (tag : Value → Option Kind) : Value → Option (Kind × Body)
  | .object members => (kindAmong tag members).map fun kind => (kind, .members (apart members))
  | .array (first :: items) => (tag first).map fun kind => (kind, .items items)
  | _ => none

/-- How members are split once the tags among them are known. -/
def splitTags (tag : Value → Option Kind) (others : List (String × Value)) :
    Option Kind → List (String × Value) → Option (Option Kind × List (String × Value))
  | kind, [] => some (kind, others)
  | none, [member] => (tag member.2).map fun kind => (some kind, others)
  | _, _ => none

/-- A second tag leaves nothing to be read. -/
theorem splitTags_some_cons (tag : Value → Option Kind) (others : List (String × Value))
    (kind : Kind) (first : String × Value) (rest : List (String × Value)) :
    splitTags tag others (some kind) (first :: rest) = none := by
  cases rest <;> rfl

/-- The first of the tags tells the kind, and no other may follow it. -/
theorem splitTags_none_cons (tag : Value → Option Kind) (others : List (String × Value))
    (first : String × Value) (rest : List (String × Value)) :
    splitTags tag others none (first :: rest) =
      (tag first.2).bind fun kind => splitTags tag others (some kind) rest := by
  cases rest with
  | nil => exact Option.map_eq_bind
  | cons second rest =>
    simp only [splitTags_some_cons, Option.bind_fun_none]
    rfl

/-- A member that is no tag is kept, whatever the tags tell. -/
theorem splitTags_cons_others (tag : Value → Option Kind) (member : String × Value)
    (others : List (String × Value)) (kind : Option Kind) (tagged : List (String × Value)) :
    splitTags tag (member :: others) kind tagged =
      (splitTags tag others kind tagged).map fun split => (split.1, member :: split.2) := by
  cases tagged with
  | nil => cases kind <;> rfl
  | cons first rest =>
    cases kind with
    | some kind =>
      rw [splitTags_some_cons, splitTags_some_cons]
      rfl
    | none =>
      cases rest with
      | nil =>
        rw [splitTags, splitTags, Option.map_map]
        rfl
      | cons second rest => rfl

section

variable {χ : Type} {tag : χ → Except Fault Kind} {content : χ → Except Fault Value}
  (tag' : Value → Option Kind)

/-- Members are split by their tags and the others. -/
theorem toOption_splitMembers {found : List (Except Fault String × χ)}
    {members : List (String × Value)}
    (h : List.Forall₂ (fun f m => f.1 = .ok m.1 ∧ content f.2 = .ok m.2 ∧
      (tag f.2).toOption = tag' m.2) found members) (kind : Option Kind) :
    (splitMembers tag content kind found).toOption =
      splitTags tag' (apart members) kind (members.filter fun member => member.1 = "type") := by
  -- what is known of the tag when a member is reached decides what another tag is worth
  induction h generalizing kind with
  | nil => cases kind <;> rfl
  | @cons f m found members hFirst _ ih =>
    obtain ⟨key, c⟩ := f
    obtain ⟨hKey, hContent, hTag⟩ := hFirst
    dsimp only at hKey hContent hTag
    subst hKey
    rw [splitMembers, ok_bind]
    dsimp only
    by_cases hType : m.1 = "type"
    · rw [if_pos hType, apart, List.filter_cons_of_neg (by simpa using hType),
        List.filter_cons_of_pos (by simpa using hType), ← apart]
      cases kind with
      | some kind =>
        -- a second tag is refused
        rw [splitTags_some_cons]
        rfl
      | none =>
        change (tag c >>= fun kind => splitMembers tag content (some kind) found).toOption = _
        rw [toOption_bind, hTag, splitTags_none_cons]
        simp only [ih]
    · rw [if_neg hType, apart, List.filter_cons_of_pos (by simpa using hType),
        List.filter_cons_of_neg (by simpa using hType), ← apart, hContent, ok_bind, toOption_bind,
        ih, splitTags_cons_others]
      exact Option.map_eq_bind.symm

end

/-- What is split is a control when it has one tag. -/
theorem bind_splitTags (tag : Value → Option Kind) (members : List (String × Value)) :
    ((splitTags tag (apart members) none (members.filter fun member => member.1 = "type")).bind
        fun (kind, others) => kind.map fun kind => (kind, Body.members others)) =
      split? tag (.object members) := by
  rw [split?, kindAmong]
  -- no tag, one, or more
  generalize (members.filter fun member => member.1 = "type") = tags
  match tags with
  | [] => rfl
  | [member] =>
    dsimp only
    rw [splitTags]
    cases tag member.2 <;> rfl
  | _ :: _ :: _ => rfl

/-- A control that is a value is split by its tag. -/
theorem toOption_splitValue (v : Value) :
    (splitValue v).toOption = split? (fun v => (kindOfValue v).toOption) v := by
  cases v with
  | object members =>
    have hFound : List.Forall₂ (fun f m => f.1 = .ok m.1 ∧
        (.ok f.2 : Except Fault Value) = .ok m.2 ∧
          (kindOfValue f.2).toOption = (kindOfValue m.2).toOption)
        (members.map fun member => ((.ok member.1 : Except Fault String), member.2))
        members := by
      rw [List.forall₂_map_left_iff, List.forall₂_same]
      exact fun _ _ => ⟨rfl, rfl, rfl⟩
    rw [splitValue, toOption_bind,
      toOption_splitMembers (fun v => (kindOfValue v).toOption) hFound, ← bind_splitTags]
    refine congrArg _ (funext fun split => ?_)
    obtain ⟨kind, others⟩ := split
    cases kind <;> rfl
  | array items =>
    cases items with
    | nil => rfl
    | cons first items => exact toOption_map _ _
  | _ => rfl

/-- The kind that the tag of a control in a text tells. -/
def kindOfText (v : Value) : Except Fault Kind := do
  kindOfTag (← v.text)

/-- A control that stands in a text is split by its tag. -/
theorem toOption_splitTree {room : Nat} {t : Tree} {v : Value} (h : t.value (room + 1) = .ok v) :
    (splitTree room t).toOption = split? (fun v => (kindOfText v).toOption) v := by
  have hTag : Tree.Agrees room (fun t => do kindOfTag (← t.textAs "variant identifier"))
      kindOfText := fun t v hValue => by
    rw [kindOfText, toOption_bind, toOption_bind, Tree.agrees_textAs _ t v hValue]
  cases Tree.reads_of_value h with
  | @object _ found members hMembers =>
    have hFound : List.Forall₂ (fun f m => f.1 = .ok m.1 ∧ Tree.value room f.2 = .ok m.2 ∧
        (do kindOfTag (← f.2.textAs "variant identifier") : Except Fault Kind).toOption =
          (kindOfText m.2).toOption)
        (found.map fun member => (member.1.read, member.2)) members := by
      rw [List.forall₂_map_left_iff]
      exact hMembers.imp fun f m hMember => ⟨hMember.1, hMember.2, hTag f.2 m.2 hMember.2⟩
    rw [splitTree, toOption_bind,
      toOption_splitMembers (fun v => (kindOfText v).toOption) hFound, ← bind_splitTags]
    refine congrArg _ (funext fun split => ?_)
    obtain ⟨kind, others⟩ := split
    cases kind <;> rfl
  | @array _ items vs hItems =>
    cases hItems with
    | nil => rfl
    | @cons first v items vs hFirst hItems =>
      have hTagged := hTag first v hFirst
      rw [splitTree, ← bind_assoc, toOption_bind, hTagged, mapM_eq_ok_iff.2 hItems]
      exact Option.map_eq_bind.symm
  | _ => rfl

/-- Of members that are split, each key has been read, and what stands under it as a tag or as a
value. -/
theorem exists_of_splitMembers {χ : Type} {tag : χ → Except Fault Kind}
    {content : χ → Except Fault Value} {kind : Option Kind} {found : List (Except Fault String × χ)}
    {split : Option Kind × List (String × Value)}
    (h : splitMembers tag content kind found = .ok split) :
    ∀ f ∈ found, (∃ key, f.1 = .ok key) ∧
      ((∃ kind, tag f.2 = .ok kind) ∨ ∃ v, content f.2 = .ok v) := by
  induction found generalizing kind split with
  | nil => exact fun f hf => absurd hf List.not_mem_nil
  | cons f found ih =>
    obtain ⟨key, c⟩ := f
    cases key with
    | error fault => exact nomatch h
    | ok key =>
      rw [splitMembers, ok_bind] at h
      dsimp only at h
      by_cases hType : key = "type"
      · rw [if_pos hType] at h
        cases kind with
        | some kind => exact nomatch h
        | none =>
          obtain ⟨kind, hKind, hOthers⟩ := bind_eq_ok_iff.1 h
          exact List.forall_mem_cons.2 ⟨⟨⟨key, rfl⟩, .inl ⟨kind, hKind⟩⟩, ih hOthers⟩
      · rw [if_neg hType] at h
        obtain ⟨v, hContent, h⟩ := bind_eq_ok_iff.1 h
        obtain ⟨others, hOthers, -⟩ := bind_eq_ok_iff.1 h
        exact List.forall_mem_cons.2 ⟨⟨⟨key, rfl⟩, .inr ⟨v, hContent⟩⟩, ih hOthers⟩

/-- A control is split in a text only where it can be read as a value. -/
theorem exists_value_of_splitTree {room : Nat} {t : Tree} {split : Kind × Body}
    (h : splitTree room t = .ok split) : ∃ v, t.value (room + 1) = .ok v := by
  have hTag : ∀ t : Tree, ∀ kind : Kind,
      (do kindOfTag (← t.textAs "variant identifier") : Except Fault Kind) = .ok kind →
        ∃ v, t.value room = .ok v := fun t kind hKind => by
    obtain ⟨s, hText, -⟩ := bind_eq_ok_iff.1 hKind
    exact Tree.exists_value_of_textAs hText room
  cases t with
  | object members ending =>
    obtain ⟨others, hSplit, h⟩ := bind_eq_ok_iff.1 h
    obtain ⟨⟨⟩, hEnding, -⟩ := bind_eq_ok_iff.1 h
    refine Tree.exists_value_object (fun member hMember => ?_) hEnding
    obtain ⟨hKey, hContent⟩ := exists_of_splitMembers hSplit _ (List.mem_map_of_mem hMember)
    exact ⟨hKey, hContent.elim (fun ⟨kind, hKind⟩ => hTag member.2 kind hKind) id⟩
  | array items ending =>
    cases items with
    | nil =>
      obtain ⟨-, -, h⟩ := bind_eq_ok_iff.1 h
      exact nomatch h
    | cons tag items =>
      rw [splitTree, ← bind_assoc] at h
      obtain ⟨kind, hKind, h⟩ := bind_eq_ok_iff.1 h
      obtain ⟨vs, hItems, h⟩ := bind_eq_ok_iff.1 h
      obtain ⟨⟨⟩, hEnding, -⟩ := bind_eq_ok_iff.1 h
      refine Tree.exists_value_array (List.forall_mem_cons.2 ⟨hTag tag kind hKind, ?_⟩) hEnding
      intro item hItem
      obtain ⟨v, -, hRead⟩ := exists_of_forall₂ (mapM_eq_ok_iff.1 hItems) hItem
      exact ⟨v, hRead⟩
  | _ => exact nomatch h

/-! ## Bodies -/

/-- Properties that are not called like the tag are read from the other members as from all. -/
theorem assemble_apart {ρ : Type} {r : Record Value ρ} (h : ∀ s ∈ r.slots, "type" ∉ s.keys)
    (members : List (String × Value)) :
    (r.assemble fun s => s.contents (apart members)) = r.assemble fun s => s.contents members := by
  have hContents : ∀ s ∈ r.slots, s.contents (apart members) = s.contents members := fun s hs => by
    rw [Slot.contents, Slot.contents, Json.underKeys, apart, List.filter_filter, Json.underKeys]
    refine congrArg _ (List.filter_congr fun member _ => ?_)
    -- a tag is under none of the keys, and any other member is kept
    by_cases hType : member.1 = "type"
    · simp [hType, h s hs]
    · simp [hType]
  exact foldlM_congr (fun s hs record => congrArg (s.take · record) (hContents s hs)) r.blank

/-- A control that is a record is read from what its members say of its properties. -/
theorem toOption_record {ρ : Type} {r : Record Value ρ} (hr : r.IsLawful)
    (hType : ∀ s ∈ r.slots, "type" ∉ s.keys) (members : List (String × Value)) :
    (Body.record r (.members (apart members))).toOption =
      r.assemble fun s => s.contents members := by
  rw [Body.record, hr.toOption_recordOfMembers, assemble_apart hType]

/-- A question is read from what members say of the properties of its kind and of every question. -/
theorem toOption_question {ρ : Type} {r : Record Value ρ} (hr : r.IsLawful)
    (hType : ∀ s ∈ r.slots, "type" ∉ s.keys) (input : ρ → Input)
    (members : List (String × Value)) :
    (Body.question r input (.members (apart members))).toOption =
      (r.assemble fun s => s.contents members).bind fun own =>
        (Field.record.assemble fun s => s.contents members).map fun field =>
          .question field (input own) := by
  rw [Body.question, toOption_bind, hr.toOption_recordOfMembers, assemble_apart hType]
  refine congrArg _ (funext fun own => ?_)
  rw [toOption_bind, Field.isLawful_record.toOption_recordOfMembers, assemble_apart (by decide)]
  exact Option.map_eq_bind.symm

/-! ## Controls -/

/-- A control is read from its kind and what is left of it. -/
theorem toOption_ofValue (room : Nat) (v : Value) :
    (ofValue (room + 1) v).toOption =
      (split? (fun v => (kindOfValue v).toOption) v).bind fun (kind, body) =>
        (ofBody (ofValue room) kind body).toOption := by
  rw [ofValue, toOption_bind, toOption_splitValue]

/-- Reads a control that stands in a text from the value of its tree. -/
def inText : Nat → Value → Except Fault Control
  | 0, _ => .error (.malformed .tooDeep)
  | room + 1, v =>
    match split? (fun v => (kindOfText v).toOption) v with
    | some (kind, body) => ofBody (ofValue room) kind body
    | none => .error untagged

/-- A control in a text is split at its tag, and then read as its kind wants. -/
theorem toOption_inText (room : Nat) (v : Value) :
    (inText (room + 1) v).toOption =
      (split? (fun v => (kindOfText v).toOption) v).bind fun (kind, body) =>
        (ofBody (ofValue room) kind body).toOption := by
  rw [inText]
  cases split? (fun v => (kindOfText v).toOption) v <;> rfl

/-- Controls are read from trees as from their values. -/
theorem agrees_read (room : Nat) : Tree.Agrees room (read room) (inText room) := by
  intro t v h
  cases room with
  | zero => cases t <;> rfl
  | succ room => rw [read, toOption_bind, toOption_splitTree h, toOption_inText]

/-- A control is read from a text as from the value of its tree, and not at all where there is
none. -/
theorem toOption_read (room : Nat) (t : Tree) :
    (read room t).toOption = (t.value room).toOption.bind fun v => (inText room v).toOption := by
  refine (agrees_read room).toOption_eq (fun t control h => ?_) t
  cases room with
  | zero =>
    cases t <;> exact nomatch h
  | succ room =>
    obtain ⟨split, hSplit, -⟩ := bind_eq_ok_iff.1 h
    exact exists_value_of_splitTree hSplit

/-- The controls in the list of a form are those that stand in a text. -/
theorem agrees_list (room : Nat) :
    Tree.Agrees room (Tree.list read room) (Value.listOf (inText (room - 1))) :=
  Tree.agrees_list fun inner hRoom => by
    subst hRoom
    exact agrees_read inner

/-- A list of controls is read from a text as from the value of its tree. -/
theorem toOption_list (room : Nat) (t : Tree) :
    (Tree.list read room t).toOption = (t.value room).toOption.bind fun v =>
      (Value.listOf (inText (room - 1)) v).toOption := by
  refine (agrees_list room).toOption_eq (fun t controls h => ?_) t
  obtain ⟨inner, items, rfl, rfl, hItems⟩ := Tree.exists_of_list h
  refine Tree.exists_value_array (fun item hItem => ?_) rfl
  -- each control has been read, so that there is a value to read it from
  obtain ⟨control, -, hRead⟩ := exists_of_forall₂ hItems hItem
  rw [← toOption_eq_some_iff, toOption_read] at hRead
  obtain ⟨v, hValue, -⟩ := Option.bind_eq_some_iff.1 hRead
  exact ⟨v, toOption_eq_some_iff.1 hValue⟩

end Control

/-! ## Forms -/

namespace Form

/-- How a form is read from the value of its tree. -/
def valueRecord (room : Nat) : Record Value Form where
  expected := "struct Form"
  slots := [
    .optional "title" [] Value.text fun title f => { f with title },
    .optional "controls" [] (Value.listOf (Control.inText (room - 1))) fun controls f =>
      { f with controls }]
  blank := ⟨"", []⟩

theorem isLawful_valueRecord (room : Nat) : (valueRecord room).IsLawful where
  nodup := by
    change ["title", "controls"].Nodup
    decide
  commutes := by
    rw [valueRecord, List.pairwise_pair]
    exact Slot.commutes_of_put rfl rfl (by exact fun _ _ _ => rfl)

/-- Reads a form from the value of its tree. -/
def ofValue : Nat → Value → Except Fault Form
  | 0, _ => .error (.malformed .tooDeep)
  | room + 1, v => Value.recordOf (valueRecord room) v

/-- Forms are read from trees as from their values. -/
theorem agrees_read (room : Nat) : Tree.Agrees room (read room) (ofValue room) := by
  cases room with
  | zero =>
    intro t v _
    cases t <;> rfl
  | succ room =>
    refine Tree.agrees_recordOf (isLawful_record room) (isLawful_valueRecord room) rfl ?_
    have hTitle : Tree.Agrees room Tree.text Value.text := Tree.agrees_textAs _
    refine .cons ⟨rfl, rfl, fun record t v h => ?_⟩ (.cons ⟨rfl, rfl, fun record t v h => ?_⟩ .nil)
    · exact (toOption_map _ _).trans ((congrArg _ (hTitle t v h)).trans (toOption_map _ _).symm)
    · exact (toOption_map _ _).trans
        ((congrArg _ (Control.agrees_list room t v h)).trans (toOption_map _ _).symm)

/-- A form is read from a text as from the value of the text, where the text has one. -/
theorem toOption_ofJson {text : String} {v : Value} (h : Json.readText Tree.value text = .ok v) :
    (ofJson text).toOption = (ofValue Json.maxRoom v).toOption := by
  obtain ⟨t, hValue, hText⟩ := Json.exists_tree_of_readText h
  rw [ofJson, hText]
  exact agrees_read Json.maxRoom t v hValue

end Form

end FormDesign
