import FormDesign.Proofs.Form.Properties

/-!
# Properties that are given twice

An object may give a property once. A form in which an object gives a property twice, be it under
the same key or under its name and an older one, is refused, however deep the object stands.

## Main definitions

* `Doubled`: a value with an object in it that gives a property twice.

## Main results

* `Struct.refuses_of_members`: an object is refused when a property is given twice or something
  that is refused is given for it;
* `Doubled.refuses`: a value with an object in it that gives a property twice is refused.
-/

namespace FormDesign

open Json (Value Fault Record Slot)

/-- What is said of a property is refused: it is said twice, or something is said that is
refused. -/
def RefusesSaid (sh : Shape) (cs : List Value) : Prop :=
  2 ≤ cs.length ∨ ∃ c ∈ cs, sh.Refuses c

/-! ## Records -/

section

variable {ρ : Type} {slot : Slot Value ρ} {p : Property} {r : Record Value ρ} {ps : List Property}

theorem Property.ReadBy.take_eq_none (h : p.ReadBy slot) {cs : List Value}
    (hSaid : RefusesSaid p.shape cs) (record : ρ) : slot.take cs record = none := by
  match cs, hSaid with
  | _ :: _ :: _, _ => rfl
  | [c], .inr ⟨d, hd, hRefuses⟩ =>
    obtain rfl := List.mem_singleton.1 hd
    exact h.refuse d hRefuses record
  | [c], .inl hTwice => exact absurd hTwice (Nat.not_succ_le_self 1)
  | [], .inl hTwice => exact absurd hTwice (Nat.not_succ_le_zero 1)

/-- A record is refused when what is said of one of its properties is. -/
theorem assemble_eq_none_of_refusesSaid (hr : Follows r ps) {ms : List (String × Value)}
    (hp : p ∈ ps) (h : RefusesSaid p.shape (Json.underKeys p.keys ms)) :
    (r.assemble fun s => s.contents ms) = none := by
  -- the field that reads the property leaves nothing to go on with
  obtain ⟨slot, hSlot, hReadBy⟩ := exists_of_forall₂ hr.flip hp
  refine Record.assemble_eq_none hSlot fun record => ?_
  rw [← hReadBy.keys] at h
  exact hReadBy.take_eq_none h record

/-- A record is refused when one of its items is. -/
theorem place_eq_none_of_refuses (hr : Follows r ps) {before after : List Value} {v : Value}
    (hp : ps[before.length]? = some p) (h : p.shape.Refuses v) (record : ρ) :
    Record.place r.slots (before ++ v :: after) record = none := by
  obtain ⟨slot, hSlot, hReadBy⟩ := exists_getElem?_of_forall₂ hr.flip hp
  exact Record.place_eq_none hSlot (hReadBy.refuse v h) record

end

/-! ## Controls -/

namespace Control

/-- What is left of a control is refused when what it says of a property of its kind is. -/
theorem toOption_ofBody_eq_none (room : Nat) {kind : Kind} {ms : List (String × Value)}
    {p : Property} (hp : p ∈ kind.properties)
    (h : RefusesSaid p.shape (Json.underKeys p.keys ms)) :
    (ofBody (ofValue room) kind (.members (apart ms))).toOption = none := by
  obtain ⟨ρ, r, ps, hPart, hFollows, hMem⟩ := Kind.HasPart.exists_of_mem room hp
  exact toOption_ofBody_eq_none_of_part hPart (assemble_eq_none_of_refusesSaid hFollows hMem h)

/-- What is left of a control that is a list is refused when an item is. -/
theorem toOption_ofBody_items_eq_none (room : Nat) {kind : Kind} {before after : List Value}
    {v : Value} {p : Property} (hp : kind.properties[before.length]? = some p)
    (h : p.shape.Refuses v) :
    (ofBody (ofValue room) kind (.items (before ++ v :: after))).toOption = none := by
  obtain hNone | ⟨ρ, r, f, -, hFollows, hPlace⟩ := toOption_ofBody_items room kind
  · exact hNone _
  · rw [hPlace, place_eq_none_of_refuses hFollows hp h]
    rfl

end Control

/-! ## Objects -/

namespace Struct

variable {s : Struct} {kind : Kind} {p : Property}

/-- An object is refused when what it says of a property is. -/
theorem refuses_of_members {ms : List (String × Value)} (hAdmits : s.Admits kind (.object ms))
    (hp : p ∈ s.properties kind) (h : RefusesSaid p.shape (Json.underKeys p.keys ms)) :
    s.Refuses (.object ms) := by
  have hRecord : ∀ {ρ : Type} {r : Record Value ρ}, r.IsLawful →
      Follows r (s.properties kind) → (Value.recordOf r (.object ms)).toOption = none :=
    fun hr hFollows => by
      rw [Value.recordOf, hr.toOption_recordOfMembers,
        assemble_eq_none_of_refusesSaid hFollows hp h]
  cases s with
  | form =>
    intro room
    cases room with
    | zero => rfl
    | succ room => exact hRecord (Form.isLawful_valueRecord room) (follows_form kind room)
  | control =>
    rcases List.mem_cons.1 hp with rfl | hp
    · -- two tags tell no kind
      have hTwice : 2 ≤ (Json.underKeys Property.tag.keys ms).length :=
        h.resolve_right (by rintro ⟨_, _, hTag⟩; exact hTag)
      have hTold : Control.tagAmong ms = none := Control.tagAmong_eq_none hTwice
      intro room
      cases room with
      | zero => exact ⟨rfl, rfl⟩
      | succ room =>
        rw [Control.toOption_ofValue, Control.toOption_inText, Control.split?_object,
          Control.split?_object, hTold]
        exact ⟨rfl, rfl⟩
    · -- the tag tells the kind, and a property of the kind is refused
      exact Control.refuses_of_split (Control.split?_object · ms) (hAdmits rfl)
        fun room => Control.toOption_ofBody_eq_none room hp h
  | arm => exact fun room => hRecord (Control.isLawful_armRecord _) (follows_arm kind room)
  | choice => exact hRecord Choice.isLawful_record (follows_choice kind)
  | bounds =>
    have hBounds : Bounds.ofValue? (.object ms) = none :=
      hRecord Bounds.isLawful_record (follows_bounds kind)
    change (readBounds _).toOption = none
    rw [toOption_readBounds (.inl ⟨ms, rfl⟩), hBounds]
    rfl

/-- A list is refused when one of its items is. -/
theorem refuses_of_item {before after : List Value} {v : Value}
    (hAdmits : s.Admits kind (.array (before ++ v :: after)))
    (hp : (s.properties kind)[before.length]? = some p) (h : p.shape.Refuses v) :
    s.Refuses (.array (before ++ v :: after)) := by
  have hRecord : ∀ {ρ : Type} {r : Record Value ρ}, Follows r (s.properties kind) →
      (Value.recordOf r (.array (before ++ v :: after))).toOption = none := fun hFollows => by
    rw [Value.recordOf, Value.toOption_recordOfItems, place_eq_none_of_refuses hFollows hp h]
  cases s with
  | form =>
    intro room
    cases room with
    | zero => rfl
    | succ room => exact hRecord (follows_form kind room)
  | control =>
    cases before with
    | nil =>
      -- the first item is the tag, in which there are no properties
      obtain rfl : Property.tag = p := Option.some.inj hp
      exact h.elim
    | cons tag before =>
      exact Control.refuses_of_split (Control.split?_array tag _) (hAdmits rfl)
        fun room => Control.toOption_ofBody_items_eq_none room hp h
  | arm => exact fun room => hRecord (follows_arm kind room)
  | choice => exact hRecord (follows_choice kind)
  | bounds =>
    have hBounds : Bounds.ofValue? (.array (before ++ v :: after)) = none :=
      hRecord (follows_bounds kind)
    change (readBounds _).toOption = none
    rw [toOption_readBounds (.inr ⟨_, rfl⟩), hBounds]
    rfl

end Struct

/-! ## Values with an object that gives a property twice -/

/-- An object in a value gives a property twice. -/
inductive Doubled : Shape → Value → Prop
  /-- The object itself does, under the same key or under two keys for the property. -/
  | here {s : Struct} {kind : Kind} {p : Property} {before between after : List (String × Value)}
      {key key' : String} {v w : Value}
      (hAdmits : s.Admits kind (.object (before ++ (key, v) :: (between ++ (key', w) :: after))))
      (hp : p ∈ s.properties kind) (hKey : key ∈ p.keys) (hKey' : key' ∈ p.keys) :
      Doubled (.struct s) (.object (before ++ (key, v) :: (between ++ (key', w) :: after)))
  /-- An object in a property does. -/
  | member {s : Struct} {kind : Kind} {p : Property} {before after : List (String × Value)}
      {key : String} {v : Value}
      (hAdmits : s.Admits kind (.object (before ++ (key, v) :: after)))
      (hp : p ∈ s.properties kind) (hKey : key ∈ p.keys) (h : Doubled p.shape v) :
      Doubled (.struct s) (.object (before ++ (key, v) :: after))
  /-- An object in a property does, where the properties are written as a list. -/
  | position {s : Struct} {kind : Kind} {p : Property} {before after : List Value} {v : Value}
      (hAdmits : s.Admits kind (.array (before ++ v :: after)))
      (hp : (s.properties kind)[before.length]? = some p) (h : Doubled p.shape v) :
      Doubled (.struct s) (.array (before ++ v :: after))
  /-- An object in a list does. -/
  | item {item : Shape} {before after : List Value} {v : Value} (h : Doubled item v) :
      Doubled (.list item) (.array (before ++ v :: after))

/-- A value in which an object gives a property twice is refused. -/
theorem Doubled.refuses {sh : Shape} {v : Value} (h : Doubled sh v) : sh.Refuses v := by
  induction h with
  | @here s kind p before between after key key' v w hAdmits hp hKey hKey' =>
    refine Struct.refuses_of_members hAdmits hp (.inl ?_)
    rw [Json.underKeys_append, Json.underKeys_cons, if_pos hKey, Json.underKeys_append,
      Json.underKeys_cons, if_pos hKey']
    simp only [List.length_append, List.length_cons]
    omega
  | @member s kind p before after key v hAdmits hp hKey _ ih =>
    refine Struct.refuses_of_members hAdmits hp (.inr ⟨v, ?_, ih⟩)
    rw [Json.underKeys_append, Json.underKeys_cons, if_pos hKey]
    exact List.mem_append_right _ (List.mem_cons_self ..)
  | position hAdmits hp _ ih => exact Struct.refuses_of_item hAdmits hp ih
  | item _ ih => exact ⟨_, rfl, _, List.mem_append_right _ (List.mem_cons_self ..), ih⟩

end FormDesign
