import FormDesign.Proofs.Control.Reading
import FormDesign.Proofs.Outcome

/-!
# Properties

The objects of a form document and their properties: under which keys a property may be given, and
what is wanted there. What is read of an object is told by its properties alone, each read from what
stands under its keys. So two objects are read alike when what stands under the keys of each
property is.

## Main definitions

* `Struct`, `Struct.properties`: the objects of a form document, and their properties;
* `Shape`, `Shape.Alike`: what is wanted at a place, and the values that are read alike there;
* `Shape.Refuses`: the values that are refused at a place for an object in them;
* `Property.ReadBy`: the fields that read a property;
* `Kind.HasPart`: the records that a control of a kind is read as;
* `Struct.Admits`: whether a value may have the properties of a kind.

## Main results

* `Struct.alike_of_members`: objects are read alike when what they say of each property is;
* `Struct.alike_of_item`: lists are read alike when they differ in items that are.
-/

namespace FormDesign

open Json (Value Fault Record Slot)

/-! ## Tables -/

/-- The objects of a form document that have properties. -/
inductive Struct
  | form
  | control
  | arm
  | choice
  | bounds
  deriving DecidableEq

/-- What is wanted at a place of a form document. -/
inductive Shape
  /-- A value in which there are no properties. -/
  | plain
  /-- A localized text. -/
  | texts
  | list (item : Shape)
  | struct (s : Struct)
  deriving DecidableEq

/-- A property of an object: its name, the older names, and what is wanted there. -/
structure Property where
  name : String
  aliases : List String
  shape : Shape
  deriving DecidableEq

namespace Property

/-- The keys that mean a property. -/
def keys (p : Property) : List String :=
  p.name :: p.aliases

/-- The tag of a control. -/
def tag : Property := ⟨"type", [], .plain⟩

end Property

/-- The properties of every question. -/
def Field.properties : List Property := [
  ⟨"name", ["Name"], .plain⟩,
  ⟨"label", ["Label"], .texts⟩,
  ⟨"hint", ["Hint"], .texts⟩,
  ⟨"required", ["Required"], .plain⟩,
  ⟨"readOnly", ["Read Only"], .plain⟩,
  ⟨"relevance", ["Relevance"], .plain⟩,
  ⟨"constraint", ["Constraint"], .plain⟩,
  ⟨"destination", ["Instance Destination"], .plain⟩]

/-- The properties of controls of a kind, apart from the tag. -/
def Kind.properties : Kind → List Property
  | group => [⟨"name", ["Name"], .plain⟩, ⟨"label", ["Label"], .texts⟩,
      ⟨"children", [], .list (.struct .control)⟩]
  | branch => [⟨"name", ["Name"], .plain⟩, ⟨"branches", [], .list (.struct .arm)⟩]
  | text => ⟨"length", ["Length"], .struct .bounds⟩ :: Field.properties
  | numeric => ⟨"kind", ["Kind"], .plain⟩ :: ⟨"range", ["Range"], .struct .bounds⟩ ::
      Field.properties
  | date | location => Field.properties
  | media => ⟨"kind", ["Kind"], .plain⟩ :: Field.properties
  | selectOne | selectMany => ⟨"options", ["Options"], .list (.struct .choice)⟩ :: Field.properties

/-- The properties of an object; for a control they depend on its kind. -/
def Struct.properties (kind : Kind) : Struct → List Property
  | form => [⟨"title", [], .plain⟩, ⟨"controls", [], .list (.struct .control)⟩]
  | control => .tag :: kind.properties
  | arm => [⟨"conditions", [], .plain⟩, ⟨"children", [], .list (.struct .control)⟩]
  | choice => [⟨"text", [], .texts⟩, ⟨"val", ["value"], .plain⟩]
  | bounds => [⟨"min", [], .plain⟩, ⟨"max", [], .plain⟩]

/-- No key means two properties of an object. -/
theorem Struct.eq_of_mem_keys {s : Struct} {kind : Kind} {p q : Property}
    (hp : p ∈ s.properties kind) (hq : q ∈ s.properties kind) {key : String} (hpKey : key ∈ p.keys)
    (hqKey : key ∈ q.keys) : p = q := by
  -- there are few objects and kinds, and each has few properties
  have hUnique : ∀ p ∈ s.properties kind, ∀ q ∈ s.properties kind, ∀ key ∈ p.keys,
      key ∈ q.keys → p = q := by
    cases s <;> cases kind <;> decide +kernel
  exact hUnique p hp q hq key hpKey hqKey

/-! ## Values that are read alike -/

/-- Values that are read alike as objects with properties. -/
def Struct.Alike : Struct → Value → Value → Prop
  | form, v, w => ∀ room, (Form.ofValue room v).toOption = (Form.ofValue room w).toOption
  -- whether it stands in the list of a form or inside another control
  | control, v, w => ∀ room, (Control.ofValue room v).toOption = (Control.ofValue room w).toOption ∧
      (Control.inText room v).toOption = (Control.inText room w).toOption
  | arm, v, w => ∀ room,
      (Value.recordOf (Control.armRecord (Control.ofValue room)) v).toOption =
        (Value.recordOf (Control.armRecord (Control.ofValue room)) w).toOption
  | choice, v, w =>
      (Value.recordOf Choice.record v).toOption = (Value.recordOf Choice.record w).toOption
  | bounds, v, w => (readBounds v).toOption = (readBounds w).toOption

/-- Values that are read alike where a shape is wanted. -/
def Shape.Alike : Shape → Value → Value → Prop
  | plain, v, w => v = w
  -- a text is read as a label, which may be left blank, and as what a choice says
  | texts, v, w => (readLabel v).toOption = (readLabel w).toOption ∧
      LocalizedText.ofValue? v = LocalizedText.ofValue? w
  | list item, v, w => v = w ∨
      ∃ vs ws, v = .array vs ∧ w = .array ws ∧ List.Forall₂ item.Alike vs ws
  | struct s, v, w => s.Alike v w

namespace Struct.Alike

variable {s : Struct} {u v w : Value}

theorem refl (s : Struct) (v : Value) : s.Alike v v := by
  cases s with
  | control => exact fun _ => ⟨rfl, rfl⟩
  | form | arm => exact fun _ => rfl
  | choice | bounds => exact rfl

theorem symm (h : s.Alike v w) : s.Alike w v := by
  cases s with
  | control => exact fun room => ⟨(h room).1.symm, (h room).2.symm⟩
  | form | arm => exact fun room => (h room).symm
  | choice | bounds => exact Eq.symm h

theorem trans (huv : s.Alike u v) (hvw : s.Alike v w) : s.Alike u w := by
  cases s with
  | control => exact fun room => ⟨(huv room).1.trans (hvw room).1, (huv room).2.trans (hvw room).2⟩
  | form | arm => exact fun room => (huv room).trans (hvw room)
  | choice | bounds => exact Eq.trans huv hvw

end Struct.Alike

namespace Shape.Alike

theorem refl (sh : Shape) (v : Value) : sh.Alike v v := by
  cases sh with
  | plain => exact rfl
  | texts => exact ⟨rfl, rfl⟩
  | list item => exact .inl rfl
  | struct s => exact Struct.Alike.refl s v

theorem symm {sh : Shape} {v w : Value} (h : sh.Alike v w) : sh.Alike w v := by
  induction sh generalizing v w with
  | plain => exact Eq.symm h
  | texts => exact ⟨h.1.symm, h.2.symm⟩
  | list item ih =>
    obtain rfl | ⟨vs, ws, rfl, rfl, hItems⟩ := h
    · exact .inl rfl
    · exact .inr ⟨ws, vs, rfl, rfl, hItems.flip.imp fun _ _ hItem => ih hItem⟩
  | struct s => exact Struct.Alike.symm h

theorem trans {sh : Shape} {u v w : Value} (huv : sh.Alike u v) (hvw : sh.Alike v w) :
    sh.Alike u w := by
  induction sh generalizing u v w with
  | plain => exact Eq.trans huv hvw
  | texts => exact ⟨huv.1.trans hvw.1, huv.2.trans hvw.2⟩
  | list item ih =>
    obtain rfl | ⟨us, vs, rfl, rfl, hFirst⟩ := huv
    · exact hvw
    obtain rfl | ⟨_, ws, hItems, rfl, hSecond⟩ := hvw
    · exact .inr ⟨us, vs, rfl, rfl, hFirst⟩
    obtain rfl := Value.array.inj hItems
    exact .inr ⟨us, ws, rfl, rfl, forall₂_trans (fun _ _ _ => ih) hFirst hSecond⟩
  | struct s => exact Struct.Alike.trans huv hvw

/-- Lists are alike when they differ in an item that is. -/
theorem item {item : Shape} {v w : Value} (h : item.Alike v w) (before after : List Value) :
    (list item).Alike (.array (before ++ v :: after)) (.array (before ++ w :: after)) := by
  have hSame : ∀ vs : List Value, List.Forall₂ item.Alike vs vs := fun vs =>
    List.forall₂_same.2 fun v _ => refl item v
  exact .inr ⟨_, _, rfl, rfl, List.rel_append (hSame before) (.cons h (hSame after))⟩

/-- Lists are read alike when their items are. -/
theorem toOption_listOf {item : Shape} {v w : Value} (h : (list item).Alike v w) {α : Type}
    {read : Value → Except Fault α}
    (hRead : ∀ v w, item.Alike v w → (read v).toOption = (read w).toOption) :
    (Value.listOf read v).toOption = (Value.listOf read w).toOption := by
  obtain rfl | ⟨vs, ws, rfl, rfl, hItems⟩ := h
  · rfl
  · exact toOption_mapM_congr (hItems.imp hRead)

end Shape.Alike

/-! ## Values that are refused -/

/-- Values that are refused as objects with properties. -/
def Struct.Refuses : Struct → Value → Prop
  | form, v => ∀ room, (Form.ofValue room v).toOption = none
  | control, v => ∀ room, (Control.ofValue room v).toOption = none ∧
      (Control.inText room v).toOption = none
  | arm, v => ∀ room,
      (Value.recordOf (Control.armRecord (Control.ofValue room)) v).toOption = none
  | choice, v => (Value.recordOf Choice.record v).toOption = none
  | bounds, v => (readBounds v).toOption = none

/-- Values that are refused for an object in them. -/
def Shape.Refuses : Shape → Value → Prop
  | plain, _ | texts, _ => False
  | list item, v => ∃ items, v = .array items ∧ ∃ w ∈ items, item.Refuses w
  | struct s, v => s.Refuses v

/-- A list is refused when one of its items is. -/
theorem Shape.Refuses.toOption_listOf {item : Shape} {v : Value} (h : (list item).Refuses v)
    {α : Type} {read : Value → Except Fault α}
    (hRead : ∀ w, item.Refuses w → (read w).toOption = none) :
    (Value.listOf read v).toOption = none := by
  obtain ⟨items, rfl, w, hw, hRefuses⟩ := h
  rw [Option.eq_none_iff_forall_ne_some]
  intro as hItems
  obtain ⟨a, -, ha⟩ := exists_of_forall₂ (mapM_eq_ok_iff.1 (toOption_eq_some_iff.1 hItems)) hw
  rw [← toOption_eq_some_iff, hRead w hRefuses] at ha
  exact nomatch ha

/-! ## Fields that read properties -/

/-- A field that is given under the keys of a property, reads values alike that are alike and
refuses those that are refused. -/
structure Property.ReadBy {ρ : Type} (p : Property) (slot : Slot Value ρ) : Prop where
  keys : slot.keys = p.keys
  fill : ∀ v w, p.shape.Alike v w → ∀ record,
    (slot.fill v record).toOption = (slot.fill w record).toOption
  refuse : ∀ v, p.shape.Refuses v → ∀ record, (slot.fill v record).toOption = none

namespace Property

variable {ρ α : Type} {name : String} {aliases : List String} {shape : Shape}
  {read : Value → Except Fault α} {put : α → ρ → ρ}

theorem readBy_optional (h : ∀ v w, shape.Alike v w → (read v).toOption = (read w).toOption)
    (hRefuse : ∀ v, shape.Refuses v → (read v).toOption = none) :
    (Property.mk name aliases shape).ReadBy (.optional name aliases read put) := by
  have hFill : ∀ v record, ((Slot.optional name aliases read put).fill v record).toOption =
      (read v).toOption.map (put · record) := fun v record => toOption_map (read v) (put · record)
  refine ⟨rfl, fun v w hAlike record => ?_, fun v hRefuses record => ?_⟩
  · rw [hFill, hFill, h v w hAlike]
  · rw [hFill, hRefuse v hRefuses]
    rfl

/-- A property in which there are no others is read by whatever field. -/
theorem readBy_plain : (Property.mk name aliases .plain).ReadBy (.optional name aliases read put) :=
  readBy_optional (fun _ _ h => congrArg (fun v => (read v).toOption) h) fun _ h => h.elim

theorem readBy_plain_mandatory :
    (Property.mk name aliases .plain).ReadBy (.mandatory name aliases read put) where
  keys := rfl
  fill v w h _ := by
    obtain rfl : v = w := h
    rfl
  refuse _ h _ := h.elim

/-- A localized text is read by whatever field reads it alike. -/
theorem readBy_texts (h : ∀ v w, Shape.texts.Alike v w → (read v).toOption = (read w).toOption) :
    (Property.mk name aliases .texts).ReadBy (.optional name aliases read put) :=
  readBy_optional h fun _ h => h.elim

/-- A list is read by whatever field reads its items alike. -/
theorem readBy_list {item : Shape} {read : Value → Except Fault α} {put : List α → ρ → ρ}
    (h : ∀ v w, item.Alike v w → (read v).toOption = (read w).toOption)
    (hRefuse : ∀ v, item.Refuses v → (read v).toOption = none) :
    (Property.mk name aliases (.list item)).ReadBy
      (.optional name aliases (Value.listOf read) put) :=
  readBy_optional (fun _ _ hList => hList.toOption_listOf h) fun _ hList =>
    hList.toOption_listOf hRefuse

end Property

open Property (readBy_optional readBy_plain readBy_plain_mandatory readBy_texts readBy_list)

/-- A record has a field for each property, in their order. -/
def Follows {ρ : Type} (r : Record Value ρ) (ps : List Property) : Prop :=
  List.Forall₂ (fun slot p => p.ReadBy slot) r.slots ps

section

variable {slot : Slot Value ρ} {p : Property} {r : Record Value ρ} {ps : List Property}

/-- What is said of a property in two ways: as often, and alike if it is said once. -/
def ToldAlike (sh : Shape) (cs ds : List Value) : Prop :=
  cs.length = ds.length ∧ ∀ c d, cs = [c] → ds = [d] → sh.Alike c d

/-- Members that say alike of each of the properties. -/
def MembersAlike (ps : List Property) (ms ns : List (String × Value)) : Prop :=
  ∀ p ∈ ps, ToldAlike p.shape (Json.underKeys p.keys ms) (Json.underKeys p.keys ns)

theorem toldAlike_refl (sh : Shape) (cs : List Value) : ToldAlike sh cs cs := by
  refine ⟨rfl, fun c d hc hd => ?_⟩
  obtain rfl : c = d := List.head_eq_of_cons_eq (hc.symm.trans hd)
  exact Shape.Alike.refl sh c

/-- One of the things that are said is replaced by one that is alike. -/
theorem toldAlike_of_alike {sh : Shape} {v w : Value} (h : sh.Alike v w) (cs ds : List Value) :
    ToldAlike sh (cs ++ v :: ds) (cs ++ w :: ds) := by
  refine ⟨by simp only [List.length_append, List.length_cons], fun c d hc hd => ?_⟩
  -- where one thing is said, it is the one that is replaced
  cases cs with
  | nil =>
    obtain rfl := (List.cons.inj hc).1
    obtain rfl := (List.cons.inj hd).1
    exact h
  | cons first cs => exact absurd (List.cons.inj hc).2 (List.append_ne_nil_of_right_ne_nil _ nofun)

/-- What is said alike of a property makes the same of a record. -/
theorem Property.ReadBy.take_eq (h : p.ReadBy slot) {cs ds : List Value}
    (hTold : ToldAlike p.shape cs ds) (record : ρ) : slot.take cs record = slot.take ds record := by
  obtain ⟨hLength, hOnce⟩ := hTold
  -- only what is said once is read at all
  match cs, ds, hLength with
  | [], [], _ => rfl
  | [c], [d], _ => exact h.fill c d (hOnce c d rfl rfl) record
  | _ :: _ :: _, _ :: _ :: _, _ => rfl

/-- Members that say alike of each property are read alike as a record of the properties. -/
theorem assemble_eq_of_membersAlike (hr : Follows r ps) {ms ns : List (String × Value)}
    (h : MembersAlike ps ms ns) :
    (r.assemble fun s => s.contents ms) = r.assemble fun s => s.contents ns := by
  refine foldlM_congr (fun slot hSlot record => ?_) r.blank
  obtain ⟨p, hp, hReadBy⟩ := exists_of_forall₂ hr hSlot
  have hTold := h p hp
  rw [← hReadBy.keys] at hTold
  exact hReadBy.take_eq hTold record

/-- Items that are alike where their property stands are read alike as a record. -/
theorem place_eq_of_alike (hr : Follows r ps) {before after : List Value} {v w : Value}
    (h : ∀ p, ps[before.length]? = some p → p.shape.Alike v w) (record : ρ) :
    Record.place r.slots (before ++ v :: after) record =
      Record.place r.slots (before ++ w :: after) record := by
  refine Record.place_replace (fun slot hSlot => ?_) record
  obtain ⟨p, hp, hReadBy⟩ := exists_getElem?_of_forall₂ hr hSlot
  exact hReadBy.fill v w (h p hp)

end

/-! ## Records that follow their properties -/

theorem follows_field : Follows Field.record Field.properties :=
  .cons readBy_plain <| .cons (readBy_texts fun _ _ h => h.1) <|
    .cons (readBy_texts fun _ _ h => h.1) <| .cons readBy_plain <| .cons readBy_plain <|
      .cons readBy_plain <| .cons readBy_plain <| .cons readBy_plain .nil

theorem follows_bounds (kind : Kind) : Follows Bounds.record (Struct.bounds.properties kind) :=
  .cons readBy_plain_mandatory <| .cons readBy_plain_mandatory .nil

theorem follows_choice (kind : Kind) : Follows Choice.record (Struct.choice.properties kind) := by
  refine .cons (readBy_texts fun v w h => ?_) <| .cons readBy_plain_mandatory .nil
  rw [h.2]
  cases LocalizedText.ofValue? w <;> rfl

theorem follows_text : Follows textRecord [⟨"length", ["Length"], .struct .bounds⟩] :=
  .cons (readBy_optional (fun _ _ h => h) fun _ h => h) .nil

theorem follows_numeric : Follows numericRecord
    [⟨"kind", ["Kind"], .plain⟩, ⟨"range", ["Range"], .struct .bounds⟩] :=
  .cons readBy_plain <| .cons (readBy_optional (fun _ _ h => h) fun _ h => h) .nil

theorem follows_media : Follows mediaRecord [⟨"kind", ["Kind"], .plain⟩] :=
  .cons readBy_plain_mandatory .nil

/-- No default stands for a list, so that it is read as the choices that it is. -/
theorem toOption_readOrDefault_choices (items : List Value) :
    (readOrDefault choicesOfValue? [] (.array items)).toOption =
      (Value.listOf (Value.recordOf Choice.record) (.array items)).toOption := by
  rw [← choicesOfValue?, readOrDefault.eq_def]
  cases choicesOfValue? (.array items) <;> rfl

theorem follows_select :
    Follows selectRecord [⟨"options", ["Options"], .list (.struct .choice)⟩] := by
  refine .cons (readBy_optional (fun v w h => ?_) fun v h => ?_) .nil
  · obtain rfl | ⟨vs, ws, rfl, rfl, hItems⟩ := h
    · rfl
    · rw [toOption_readOrDefault_choices, toOption_readOrDefault_choices]
      exact toOption_mapM_congr hItems
  · obtain ⟨items, rfl, hItem⟩ := h
    rw [toOption_readOrDefault_choices]
    exact Shape.Refuses.toOption_listOf ⟨items, rfl, hItem⟩ fun _ h => h

theorem follows_group (room : Nat) :
    Follows (Control.groupRecord (Control.ofValue room)) Kind.group.properties :=
  .cons readBy_plain <| .cons (readBy_texts fun _ _ h => h.1) <|
    .cons (readBy_list (fun _ _ h => (h room).1) fun _ h => (h room).1) .nil

theorem follows_arm (kind : Kind) (room : Nat) :
    Follows (Control.armRecord (Control.ofValue room)) (Struct.arm.properties kind) :=
  .cons readBy_plain <| .cons (readBy_list (fun _ _ h => (h room).1) fun _ h => (h room).1) .nil

theorem follows_branch (room : Nat) :
    Follows (Control.branchRecord (Control.ofValue room)) Kind.branch.properties :=
  .cons readBy_plain <| .cons (readBy_list (fun _ _ h => h room) fun _ h => h room) .nil

theorem follows_form (kind : Kind) (room : Nat) :
    Follows (Form.valueRecord room) (Struct.form.properties kind) :=
  .cons readBy_plain <|
    .cons (readBy_list (fun _ _ h => (h (room - 1)).2) fun _ h => (h (room - 1)).2) .nil

/-! ## Controls -/

/-- No property of a kind is given under the key of the tag. -/
theorem Kind.type_not_mem_keys (kind : Kind) : ∀ p ∈ kind.properties, "type" ∉ p.keys := by
  cases kind <;> decide

/-- The records that what is left of a control of a kind is read as. -/
inductive Kind.HasPart (room : Nat) : Kind → {ρ : Type} → Record Value ρ → Prop
  | group : HasPart room .group (Control.groupRecord (Control.ofValue room))
  | branch : HasPart room .branch (Control.branchRecord (Control.ofValue room))
  | text : HasPart room .text textRecord
  | numeric : HasPart room .numeric numericRecord
  | media : HasPart room .media mediaRecord
  | selectOne : HasPart room .selectOne selectRecord
  | selectMany : HasPart room .selectMany selectRecord
  /-- What every question has. -/
  | field {kind : Kind} (hGroup : kind ≠ .group) (hBranch : kind ≠ .branch) :
    HasPart room kind Field.record

namespace Kind.HasPart

variable {room : Nat} {kind : Kind} {ρ : Type} {r : Record Value ρ}

theorem isLawful (h : kind.HasPart room r) : r.IsLawful := by
  cases h with
  | group => exact Control.isLawful_groupRecord _
  | branch => exact Control.isLawful_branchRecord _
  | text => exact isLawful_textRecord
  | numeric => exact isLawful_numericRecord
  | media => exact isLawful_mediaRecord
  | selectOne | selectMany => exact isLawful_selectRecord
  | field => exact Field.isLawful_record

/-- The fields of a record are for properties of the kind. -/
theorem exists_follows (h : kind.HasPart room r) : ∃ ps, Follows r ps ∧ ps ⊆ kind.properties := by
  cases h with
  | group => exact ⟨_, follows_group room, List.Subset.refl _⟩
  | branch => exact ⟨_, follows_branch room, List.Subset.refl _⟩
  | text => exact ⟨_, follows_text, List.cons_subset_cons _ (List.nil_subset _)⟩
  | numeric =>
    exact ⟨_, follows_numeric,
      List.cons_subset_cons _ (List.cons_subset_cons _ (List.nil_subset _))⟩
  | media => exact ⟨_, follows_media, List.cons_subset_cons _ (List.nil_subset _)⟩
  | selectOne | selectMany =>
    exact ⟨_, follows_select, List.cons_subset_cons _ (List.nil_subset _)⟩
  | field hGroup hBranch =>
    refine ⟨_, follows_field, fun p hp => ?_⟩
    cases kind with
    | group => exact absurd rfl hGroup
    | branch => exact absurd rfl hBranch
    | date | location => exact hp
    | text | media | selectOne | selectMany => exact List.mem_cons_of_mem _ hp
    | numeric => exact List.mem_cons_of_mem _ (List.mem_cons_of_mem _ hp)

/-- Each property of the kind has a field in one of the records. -/
theorem exists_of_mem (room : Nat) {p : Property} (hp : p ∈ kind.properties) :
    ∃ (ρ : Type) (r : Record Value ρ) (ps : List Property), kind.HasPart room r ∧ Follows r ps ∧
      p ∈ ps := by
  have hQuestion : ∀ {ρ : Type} {r : Record Value ρ} {ps : List Property}, kind.HasPart room r →
      Follows r ps → kind.HasPart room Field.record → p ∈ ps ++ Field.properties →
        ∃ (ρ : Type) (r : Record Value ρ) (ps : List Property), kind.HasPart room r ∧
          Follows r ps ∧ p ∈ ps := fun hOwn hFollows hField hMem =>
    (List.mem_append.1 hMem).elim (fun h => ⟨_, _, _, hOwn, hFollows, h⟩)
      fun h => ⟨_, _, _, hField, follows_field, h⟩
  cases kind with
  | group => exact ⟨_, _, _, .group, follows_group room, hp⟩
  | branch => exact ⟨_, _, _, .branch, follows_branch room, hp⟩
  | date | location => exact ⟨_, _, _, .field nofun nofun, follows_field, hp⟩
  | text => exact hQuestion .text follows_text (.field nofun nofun) hp
  | numeric => exact hQuestion .numeric follows_numeric (.field nofun nofun) hp
  | media => exact hQuestion .media follows_media (.field nofun nofun) hp
  | selectOne => exact hQuestion .selectOne follows_select (.field nofun nofun) hp
  | selectMany => exact hQuestion .selectMany follows_select (.field nofun nofun) hp

/-- No field is given under the key of the tag. -/
theorem type_not_mem_keys (h : kind.HasPart room r) : ∀ slot ∈ r.slots, "type" ∉ slot.keys := by
  intro slot hSlot
  obtain ⟨ps, hFollows, hProperties⟩ := h.exists_follows
  obtain ⟨p, hp, hReadBy⟩ := exists_of_forall₂ hFollows hSlot
  rw [hReadBy.keys]
  exact Kind.type_not_mem_keys kind p (hProperties hp)

end Kind.HasPart

namespace Control

/-- The tag among members, if there is one. -/
def tagAmong (ms : List (String × Value)) : Option Value :=
  match Json.underKeys Property.tag.keys ms with
  | [v] => some v
  | _ => none

theorem split?_object (tag : Value → Option Kind) (ms : List (String × Value)) :
    split? tag (.object ms) =
      ((tagAmong ms).bind tag).map fun kind => (kind, .members (apart ms)) := by
  have hTags : (ms.filter fun member => member.1 ∈ Property.tag.keys) =
      ms.filter fun member => member.1 = "type" :=
    List.filter_congr fun member _ => by simp [Property.keys, Property.tag]
  rw [split?, kindAmong, tagAmong, Json.underKeys, hTags]
  generalize (ms.filter fun member => member.1 = "type") = tags
  cases tags with
  | nil => rfl
  | cons tag tags => cases tags <;> rfl

theorem split?_array (first : Value) (items : List Value) (tag : Value → Option Kind) :
    split? tag (.array (first :: items)) =
      ((some first).bind tag).map fun kind => (kind, .items items) := rfl

/-- Members with two tags have none. -/
theorem tagAmong_eq_none {ms : List (String × Value)}
    (h : 2 ≤ (Json.underKeys Property.tag.keys ms).length) : tagAmong ms = none := by
  rw [tagAmong]
  generalize Json.underKeys Property.tag.keys ms = tags at h
  match tags, h with
  | _ :: _ :: _, _ => rfl

/-- Members that say alike of the tag have the same tag. -/
theorem tagAmong_eq_of_toldAlike {ms ns : List (String × Value)}
    (h : ToldAlike .plain (Json.underKeys Property.tag.keys ms)
      (Json.underKeys Property.tag.keys ns)) : tagAmong ms = tagAmong ns := by
  rw [tagAmong, tagAmong]
  generalize Json.underKeys Property.tag.keys ms = cs, Json.underKeys Property.tag.keys ns = ds at h
  obtain ⟨hLength, hOnce⟩ := h
  match cs, ds, hLength with
  | [], [], _ => rfl
  | [c], [d], _ => exact congrArg some (hOnce c d rfl rfl)
  | _ :: _ :: _, _ :: _ :: _, _ => rfl

/-! ### Members -/

section

variable {room : Nat} {kind : Kind} {ρ : Type} {r : Record Value ρ} {ms ns : List (String × Value)}

/-- A control of one record is read from what members say of its properties. -/
theorem toOption_record_of_part (h : kind.HasPart room r) (ms : List (String × Value)) :
    (Body.record r (.members (apart ms))).toOption = r.assemble fun s => s.contents ms :=
  toOption_record h.isLawful h.type_not_mem_keys ms

/-- A question with a record of its own is read from what members say of the properties of both of
its records. -/
theorem toOption_question_of_part (h : kind.HasPart room r) (input : ρ → Input)
    (ms : List (String × Value)) :
    (Body.question r input (.members (apart ms))).toOption =
      (r.assemble fun s => s.contents ms).bind fun own =>
        (Field.record.assemble fun s => s.contents ms).map fun field =>
          .question field (input own) :=
  toOption_question h.isLawful h.type_not_mem_keys input ms

/-- What is left of a control is read alike when each of its records is. -/
theorem toOption_ofBody_congr
    (h : ∀ {ρ : Type} {r : Record Value ρ}, kind.HasPart room r →
      (r.assemble fun s => s.contents ms) = r.assemble fun s => s.contents ns) :
    (ofBody (ofValue room) kind (.members (apart ms))).toOption =
      (ofBody (ofValue room) kind (.members (apart ns))).toOption := by
  have hRecord : ∀ {ρ : Type} {r : Record Value ρ}, kind.HasPart room r →
      (Body.record r (.members (apart ms))).toOption =
        (Body.record r (.members (apart ns))).toOption := fun hPart => by
    rw [toOption_record_of_part hPart, toOption_record_of_part hPart, h hPart]
  have hQuestion : ∀ {ρ : Type} {r : Record Value ρ} (input : ρ → Input), kind.HasPart room r →
      kind.HasPart room Field.record → (Body.question r input (.members (apart ms))).toOption =
        (Body.question r input (.members (apart ns))).toOption := fun input hOwn hField => by
    rw [toOption_question_of_part hOwn, toOption_question_of_part hOwn, h hOwn, h hField]
  cases kind with
  | group => rw [ofBody, ofBody, toOption_bind, toOption_bind, hRecord .group]
  | branch => rw [ofBody, ofBody, toOption_bind, toOption_bind, hRecord .branch]
  | date | location =>
    rw [ofBody, ofBody, toOption_bind, toOption_bind, hRecord (.field nofun nofun)]
  | text => exact hQuestion _ .text (.field nofun nofun)
  | numeric => exact hQuestion _ .numeric (.field nofun nofun)
  | media => exact hQuestion _ .media (.field nofun nofun)
  | selectOne => exact hQuestion _ .selectOne (.field nofun nofun)
  | selectMany => exact hQuestion _ .selectMany (.field nofun nofun)

/-- What is left of a control is refused when one of its records is. -/
theorem toOption_ofBody_eq_none_of_part (hPart : kind.HasPart room r)
    (h : (r.assemble fun s => s.contents ms) = none) :
    (ofBody (ofValue room) kind (.members (apart ms))).toOption = none := by
  have hRecord : (Body.record r (.members (apart ms))).toOption = none := by
    rw [toOption_record_of_part hPart, h]
  have hQuestion : ∀ input : ρ → Input,
      (Body.question r input (.members (apart ms))).toOption = none := fun input => by
    rw [toOption_question_of_part hPart, h]
    rfl
  -- a question is refused for its own record or for what every question has
  cases hPart with
  | group | branch =>
    rw [ofBody, toOption_bind, hRecord]
    rfl
  | text | numeric | media | selectOne | selectMany => exact hQuestion _
  | field hGroup hBranch =>
    have hField : ∀ {σ : Type} {own : Record Value σ} (input : σ → Input), kind.HasPart room own →
        (Body.question own input (.members (apart ms))).toOption = none := fun input hOwn => by
      rw [toOption_question_of_part hOwn, h]
      exact Option.bind_fun_none _
    cases kind with
    | group => exact absurd rfl hGroup
    | branch => exact absurd rfl hBranch
    | date | location =>
      rw [ofBody, toOption_bind, hRecord]
      rfl
    | text => exact hField _ .text
    | numeric => exact hField _ .numeric
    | media => exact hField _ .media
    | selectOne => exact hField _ .selectOne
    | selectMany => exact hField _ .selectMany

end

/-- What is left of a control is read alike when it says alike of the properties of its kind. -/
theorem toOption_ofBody_eq (room : Nat) {kind : Kind} {ms ns : List (String × Value)}
    (h : MembersAlike kind.properties ms ns) :
    (ofBody (ofValue room) kind (.members (apart ms))).toOption =
      (ofBody (ofValue room) kind (.members (apart ns))).toOption :=
  toOption_ofBody_congr fun hPart => by
    obtain ⟨ps, hFollows, hProperties⟩ := hPart.exists_follows
    exact assemble_eq_of_membersAlike hFollows fun p hp => h p (hProperties hp)

/-! ### Items -/

/-- What is left of a control that is a list is one record with all properties of the kind, if
controls of the kind may be written as lists. -/
theorem toOption_ofBody_items (room : Nat) (kind : Kind) :
    (∀ items, (ofBody (ofValue room) kind (.items items)).toOption = none) ∨
      ∃ (ρ : Type) (r : Record Value ρ) (f : ρ → Control), kind.HasPart room r ∧
        Follows r kind.properties ∧ ∀ items,
          (ofBody (ofValue room) kind (.items items)).toOption =
            (Record.place r.slots items r.blank).map f := by
  have hRecord : ∀ {ρ : Type} (r : Record Value ρ) (f : ρ → Control) (items : List Value),
      (do return f (← Body.record r (.items items)) : Except Fault Control).toOption =
        (Record.place r.slots items r.blank).map f := fun r f items => by
    rw [← Value.toOption_recordOfItems]
    exact toOption_map _ f
  cases kind with
  | group =>
    exact .inr ⟨_, _, fun g : GroupParts => .group g.name g.label g.children, .group,
      follows_group room, hRecord _ _⟩
  | branch =>
    exact .inr ⟨_, _, fun b : BranchParts => .branch b.name b.arms, .branch, follows_branch room,
      hRecord _ _⟩
  | date =>
    exact .inr ⟨_, _, (.question · .date), .field nofun nofun, follows_field, hRecord _ _⟩
  | location =>
    exact .inr ⟨_, _, (.question · .location), .field nofun nofun, follows_field, hRecord _ _⟩
  | text | numeric | media | selectOne | selectMany => exact .inl fun _ => rfl

/-- What is left of a control that is a list is read alike when an item is. -/
theorem toOption_ofBody_items_eq (room : Nat) {kind : Kind} {before after : List Value}
    {v w : Value} (h : ∀ p, kind.properties[before.length]? = some p → p.shape.Alike v w) :
    (ofBody (ofValue room) kind (.items (before ++ v :: after))).toOption =
      (ofBody (ofValue room) kind (.items (before ++ w :: after))).toOption := by
  obtain hNone | ⟨ρ, r, f, -, hFollows, hPlace⟩ := toOption_ofBody_items room kind
  · rw [hNone, hNone]
  · rw [hPlace, hPlace, place_eq_of_alike hFollows h]

/-! ### Tags -/

/-- The kind that a value tells, if it is written as a control. -/
def kindOf? (v : Value) : Option Kind :=
  (split? (fun v => (kindOfValue v).toOption) v).map Prod.fst

/-- A tag in a text tells what it tells inside a control, if it tells anything. -/
theorem kindOfValue_of_kindOfText {v : Value} {kind : Kind}
    (h : (kindOfText v).toOption = some kind) : (kindOfValue v).toOption = some kind := by
  cases v with
  | string s => exact h
  | _ => exact nomatch h

section

variable {told : Option Value} {v w : Value} {kind : Kind} {body body' : Body}

theorem kindOf?_of_split
    (hv : ∀ tag, split? tag v = (told.bind tag).map fun kind => (kind, body)) :
    kindOf? v = told.bind fun t => (kindOfValue t).toOption := by
  rw [kindOf?, hv, Option.map_map]
  exact congrFun Option.map_id_fun _

/-- A control that tells no other kind is read from what is left of it, if its tag can be read. -/
theorem toOption_of_split (hv : ∀ tag, split? tag v = (told.bind tag).map fun kind => (kind, body))
    (hKind : ∀ k ∈ kindOf? v, k = kind) (room : Nat) :
    (ofValue (room + 1) v).toOption = ((told.bind fun t => (kindOfValue t).toOption).bind
        fun _ => (ofBody (ofValue room) kind body).toOption) ∧
      (inText (room + 1) v).toOption = (told.bind fun t => (kindOfText t).toOption).bind
        fun _ => (ofBody (ofValue room) kind body).toOption := by
  rw [kindOf?_of_split hv] at hKind
  -- tags inside controls may be told in more ways than tags in texts, but tell the same
  have hRead : ∀ tag : Value → Option Kind, (∀ t k, tag t = some k →
      (kindOfValue t).toOption = some k) →
        ((split? tag v).bind fun split => (ofBody (ofValue room) split.1 split.2).toOption) =
          (told.bind tag).bind fun _ => (ofBody (ofValue room) kind body).toOption := by
    intro tag hTag
    rw [hv, Option.bind_map]
    cases told with
    | none => rfl
    | some t =>
      rw [Option.bind_some]
      cases hk : tag t with
      | none => rfl
      | some k =>
        -- the tag tells a kind, and no other than the one that is known
        obtain rfl := hKind k (hTag t k hk)
        rfl
  rw [toOption_ofValue, toOption_inText]
  exact ⟨hRead _ fun _ _ h => h, hRead _ fun _ _ h => kindOfValue_of_kindOfText h⟩

/-- Controls are read alike when they have the same tag and what is left of them is read alike. -/
theorem alike_of_split (hv : ∀ tag, split? tag v = (told.bind tag).map fun kind => (kind, body))
    (hw : ∀ tag, split? tag w = (told.bind tag).map fun kind => (kind, body'))
    (hKind : ∀ k ∈ kindOf? v, k = kind)
    (hBody : ∀ room, (ofBody (ofValue room) kind body).toOption =
      (ofBody (ofValue room) kind body').toOption) : Struct.control.Alike v w := by
  have hKind' : ∀ k ∈ kindOf? w, k = kind := by
    rwa [kindOf?_of_split hw, ← kindOf?_of_split hv]
  intro room
  cases room with
  | zero => exact ⟨rfl, rfl⟩
  | succ room =>
    obtain ⟨hValue, hText⟩ := toOption_of_split hv hKind room
    obtain ⟨hValue', hText'⟩ := toOption_of_split hw hKind' room
    rw [hValue, hText, hValue', hText', hBody]
    exact ⟨rfl, rfl⟩

/-- A control is refused when what is left of it is. -/
theorem refuses_of_split (hv : ∀ tag, split? tag v = (told.bind tag).map fun kind => (kind, body))
    (hKind : ∀ k ∈ kindOf? v, k = kind)
    (hBody : ∀ room, (ofBody (ofValue room) kind body).toOption = none) :
    Struct.control.Refuses v := by
  intro room
  cases room with
  | zero => exact ⟨rfl, rfl⟩
  | succ room =>
    obtain ⟨hValue, hText⟩ := toOption_of_split hv hKind room
    rw [hValue, hText, hBody]
    exact ⟨Option.bind_fun_none _, Option.bind_fun_none _⟩

end

end Control

/-! ## Objects -/

/-- Whether a value may have the properties of a kind: as a control it tells no other. -/
def Struct.Admits (s : Struct) (kind : Kind) (v : Value) : Prop :=
  s = control → ∀ k ∈ Control.kindOf? v, k = kind

/-- A control may have the properties of the kind that it tells. -/
theorem Struct.admits_of_kindOf? (kind : Kind) {v : Value} (h : Control.kindOf? v = some kind) :
    Struct.control.Admits kind v := by
  intro _ k hk
  rw [h] at hk
  exact (Option.some.inj hk).symm

/-- Where an object or a list stands, bounds are given. -/
theorem readBounds_of_record {v : Value}
    (h : (∃ ms, v = .object ms) ∨ ∃ items, v = .array items) :
    readBounds v = match Bounds.ofValue? v with
      | some b => .ok (some b)
      | none => .error shapeless := by
  obtain ⟨ms, rfl⟩ | ⟨items, rfl⟩ := h <;> rfl

theorem toOption_readBounds {v : Value}
    (h : (∃ ms, v = .object ms) ∨ ∃ items, v = .array items) :
    (readBounds v).toOption = (Bounds.ofValue? v).map some := by
  rw [readBounds_of_record h]
  cases Bounds.ofValue? v <;> rfl

namespace Struct

variable {s : Struct} {kind : Kind}

/-- Objects are read alike when they say alike of each property. -/
theorem alike_of_members {ms ns : List (String × Value)} (hAdmits : s.Admits kind (.object ms))
    (h : MembersAlike (s.properties kind) ms ns) : s.Alike (.object ms) (.object ns) := by
  have hRecord : ∀ {ρ : Type} {r : Record Value ρ}, r.IsLawful →
      Follows r (s.properties kind) → (Value.recordOf r (.object ms)).toOption =
        (Value.recordOf r (.object ns)).toOption := fun hr hFollows => by
    rw [Value.recordOf, Value.recordOf, hr.toOption_recordOfMembers, hr.toOption_recordOfMembers,
      assemble_eq_of_membersAlike hFollows h]
  cases s with
  | form =>
    intro room
    cases room with
    | zero => rfl
    | succ room => exact hRecord (Form.isLawful_valueRecord room) (follows_form kind room)
  | control =>
    -- the tag is a property like the others, so that both objects are of one kind
    have hTag : Control.tagAmong ms = Control.tagAmong ns :=
      Control.tagAmong_eq_of_toldAlike (h .tag (List.mem_cons_self ..))
    have hOthers : MembersAlike kind.properties ms ns := fun p hp => h p (List.mem_cons_of_mem _ hp)
    refine Control.alike_of_split (Control.split?_object · ms) (fun tag => ?_) (hAdmits rfl)
      fun room => Control.toOption_ofBody_eq room hOthers
    rw [Control.split?_object, hTag]
  | arm => exact fun room => hRecord (Control.isLawful_armRecord _) (follows_arm kind room)
  | choice => exact hRecord Choice.isLawful_record (follows_choice kind)
  | bounds =>
    have hBounds : Bounds.ofValue? (.object ms) = Bounds.ofValue? (.object ns) :=
      hRecord Bounds.isLawful_record (follows_bounds kind)
    change (readBounds _).toOption = (readBounds _).toOption
    rw [toOption_readBounds (.inl ⟨ms, rfl⟩), toOption_readBounds (.inl ⟨ns, rfl⟩), hBounds]

/-- Objects are read alike when they differ in what a member gives for a property, and that is
alike. -/
theorem alike_of_member {p : Property} {before after : List (String × Value)} {key : String}
    {v w : Value} (hAdmits : s.Admits kind (.object (before ++ (key, v) :: after)))
    (hp : p ∈ s.properties kind) (hKey : key ∈ p.keys) (h : p.shape.Alike v w) :
    s.Alike (.object (before ++ (key, v) :: after)) (.object (before ++ (key, w) :: after)) := by
  -- only what stands under the keys of this property has changed
  refine alike_of_members hAdmits fun q hq => ?_
  rw [Json.underKeys_append, Json.underKeys_append, Json.underKeys_cons, Json.underKeys_cons]
  by_cases hq' : key ∈ q.keys
  · obtain rfl := eq_of_mem_keys hp hq hKey hq'
    rw [if_pos hKey, if_pos hKey]
    exact toldAlike_of_alike h _ _
  · rw [if_neg hq', if_neg hq']
    exact toldAlike_refl q.shape _

/-- Lists are read alike when they differ in an item that is alike. -/
theorem alike_of_item {before after : List Value} {v w : Value}
    (hAdmits : s.Admits kind (.array (before ++ v :: after)))
    (h : ∀ p, (s.properties kind)[before.length]? = some p → p.shape.Alike v w) :
    s.Alike (.array (before ++ v :: after)) (.array (before ++ w :: after)) := by
  have hRecord : ∀ {ρ : Type} {r : Record Value ρ}, Follows r (s.properties kind) →
      (Value.recordOf r (.array (before ++ v :: after))).toOption =
        (Value.recordOf r (.array (before ++ w :: after))).toOption := fun hFollows => by
    rw [Value.recordOf, Value.recordOf, Value.toOption_recordOfItems, Value.toOption_recordOfItems,
      place_eq_of_alike hFollows h]
  cases s with
  | form =>
    intro room
    cases room with
    | zero => rfl
    | succ room => exact hRecord (follows_form kind room)
  | control =>
    cases before with
    | nil =>
      -- the first item is the tag, which is plain
      obtain rfl : v = w := h .tag rfl
      exact Alike.refl ..
    | cons tag before =>
      exact Control.alike_of_split (Control.split?_array tag _) (Control.split?_array tag _)
        (hAdmits rfl) fun room => Control.toOption_ofBody_items_eq room h
  | arm => exact fun room => hRecord (follows_arm kind room)
  | choice => exact hRecord (follows_choice kind)
  | bounds =>
    have hBounds : Bounds.ofValue? (.array (before ++ v :: after)) =
        Bounds.ofValue? (.array (before ++ w :: after)) := hRecord (follows_bounds kind)
    change (readBounds _).toOption = (readBounds _).toOption
    rw [toOption_readBounds (.inr ⟨_, rfl⟩), toOption_readBounds (.inr ⟨_, rfl⟩), hBounds]

end Struct

end FormDesign
