import FormDesign.Proofs.Control.Normal
import FormDesign.Proofs.Form.Properties

/-!
# Vacancies

Most properties of a control need not be set, and there are several ways not to set one: it may be
left out, or be given a value that stands for its absence. Which values do differs between
properties, and each of them has a reader of its own. Every such value is read as what the property
is before anything is read, so that a control with the value is read like one without the property.

## Main definitions

* `Vacancy`, `Kind.vacancies`: the ways not to set a property, and those of the properties of a
  kind;
* `Property.Vacant`: a value that stands for the absence of a property;
* `LeavesUnset`: members that leave a property unset;
* `Slot.Spares`: a field that such values leave blank.

## Main results

* `Control.alike_of_leavesUnset`: members that leave a property unset may be replaced by each other;
* `Control.alike_of_vacant_items`: items with such values may be replaced by each other;
* `Control.alike_of_vacant_last`: a last item with such a value may be left out.
-/

namespace FormDesign

open Json (Value Fault Record Slot)

/-! ## Values -/

/-- A way not to set a property: what stands for its absence beside null. -/
inductive Vacancy
  /-- The empty text, and an object of empty texts. -/
  | texts
  /-- White space. -/
  | line
  /-- White space, and false. -/
  | off
  /-- White space, and the name of the kind of integers. -/
  | integer
  /-- White space, and the empty list. -/
  | choices
  deriving DecidableEq

/-- The values that stand for the absence of a property. -/
def Vacancy.Allows : Vacancy → Value → Prop
  | _, .null => True
  | texts, .string s => s = ""
  | texts, .object members => ∀ member ∈ members, member.2 = .string ""
  | off, .bool b => b = false
  | integer, .string s => Text.isBlank s = true ∨ s = "Integer"
  | choices, .array items => items = []
  | line, .string s | off, .string s | choices, .string s => Text.isBlank s = true
  | _, _ => False

/-- How the properties of every question may be left unset; the name may not. -/
def Field.vacancies : List (String × Vacancy) := [
  ("label", .texts), ("hint", .texts), ("required", .off), ("readOnly", .off),
  ("relevance", .line), ("constraint", .line), ("destination", .line)]

/-- How the properties of controls of a kind may be left unset. -/
def Kind.vacancies : Kind → List (String × Vacancy)
  | group => [("label", .texts)]
  | branch => [("name", .line)]
  | text => ("length", .off) :: Field.vacancies
  | numeric => ("kind", .integer) :: ("range", .off) :: Field.vacancies
  | date | location | media => Field.vacancies
  | selectOne | selectMany => ("options", .choices) :: Field.vacancies

/-- A value that stands for the absence of a property of controls of a kind. -/
def Property.Vacant (kind : Kind) (p : Property) (v : Value) : Prop :=
  ∃ u ∈ kind.vacancies.lookup p.name, u.Allows v

/-- Members that leave a property of controls of a kind unset: none, or one with a value for its
absence. -/
inductive LeavesUnset (kind : Kind) (p : Property) : List (String × Value) → Prop
  | absent : LeavesUnset kind p []
  | given {key : String} {v : Value} (hKey : key ∈ p.keys) (hVacant : p.Vacant kind v) :
    LeavesUnset kind p [(key, v)]

/-! ## Readers -/

namespace LocalizedText

theorem isBlank_insert_empty {t : LocalizedText} (h : t.isBlank = true) (language : String) :
    (t.insert language "").isBlank = true := by
  rw [isBlank, List.all_eq_true] at h ⊢
  intro entry hEntry
  rcases mem_insertEntry hEntry with rfl | hEntry
  · rfl
  · exact h entry hEntry

/-- An object of empty texts is a text that is blank. -/
theorem ofValue?_of_forall_empty {members : List (String × Value)}
    (h : ∀ member ∈ members, member.2 = .string "") :
    ∃ t, ofValue? (.object members) = some t ∧ t.isBlank = true := by
  have hEntries : members.mapM entry? = some (members.map fun member => (member.1, "")) := by
    induction members with
    | nil => rfl
    | cons member members ih =>
      obtain ⟨hFirst, hOthers⟩ := List.forall_mem_cons.1 h
      rw [List.mapM_cons, ih hOthers, entry?, hFirst]
      rfl
  -- also when a language is given more than once, what is put in last has no text
  have hBlank : ∀ (languages : List String) (t : LocalizedText), t.isBlank = true →
      ((languages.map fun language => (language, "")).foldl
        (fun t pair => t.insert pair.1 pair.2) t).isBlank = true := by
    intro languages
    induction languages with
    | nil => exact fun _ ht => ht
    | cons language languages ih => exact fun t ht => ih _ (isBlank_insert_empty ht language)
  refine ⟨_, by rw [ofValue?_object, hEntries, Option.map_some], ?_⟩
  have hList := hBlank (members.map Prod.fst) empty rfl
  rwa [List.map_map] at hList

end LocalizedText

section

variable {v : Value}

theorem readLabel_of_allows (h : Vacancy.texts.Allows v) : readLabel v = .ok none := by
  cases v with
  | null => rfl
  | string s =>
    obtain rfl : s = "" := h
    rfl
  | object members =>
    obtain ⟨t, hTexts, hBlank⟩ := LocalizedText.ofValue?_of_forall_empty h
    rw [readLabel_object, hTexts]
    dsimp only
    rw [if_pos hBlank]
  | _ => exact h.elim

theorem readUnlessBlank_of_allows (h : Vacancy.line.Allows v) : readUnlessBlank v = .ok none := by
  cases v with
  | null => rfl
  | string s =>
    have hBlank : Text.isBlank s = true := h
    change (.ok (if Text.isBlank s then none else some s) : Except Fault (Option String)) = _
    rw [if_pos hBlank]
  | _ => exact h.elim

theorem readBounds_of_allows (h : Vacancy.off.Allows v) : readBounds v = .ok none := by
  cases v with
  | null => rfl
  | bool b =>
    obtain rfl : b = false := h
    rfl
  | string s => exact if_pos h
  | _ => exact h.elim

variable {α : Type} {read? : Value → Option α} {default : α}

/-- White space stands for a default, if it is read as nothing else. -/
theorem readOrDefault_blank {s : String} (hBlank : Text.isBlank s = true)
    (hRead : read? (.string s) = none) : readOrDefault read? default (.string s) = .ok default := by
  rw [readOrDefault.eq_def, hRead]
  exact if_pos hBlank

/-- What is read as the default itself is as good as its absence. -/
theorem readOrDefault_eq_default (hRead : read? v = some default) :
    readOrDefault read? default v = .ok default := by
  rw [readOrDefault.eq_def, hRead]
  cases v <;> rfl

theorem readFlag_of_allows (h : Vacancy.off.Allows v) :
    readOrDefault flagOfValue? false v = .ok false := by
  cases v with
  | null => rfl
  | bool b =>
    obtain rfl : b = false := h
    rfl
  | string s => exact readOrDefault_blank h rfl
  | _ => exact h.elim

/-- White space is not the name of a kind of numbers. -/
theorem NumericKind.ofValue?_blank {s : String} (h : Text.isBlank s = true) :
    ofValue? (.string s) = none := by
  rw [ofValue?, Value.choice, ofName.eq_def]
  split
  · exact absurd h (by decide)
  · exact absurd h (by decide)
  · rfl

theorem readNumericKind_of_allows (h : Vacancy.integer.Allows v) :
    readOrDefault NumericKind.ofValue? .integer v = .ok .integer := by
  cases v with
  | null => rfl
  | string s =>
    rcases h with hBlank | rfl
    · exact readOrDefault_blank hBlank (NumericKind.ofValue?_blank hBlank)
    · exact readOrDefault_eq_default rfl
  | _ => exact h.elim

theorem readChoices_of_allows (h : Vacancy.choices.Allows v) :
    readOrDefault choicesOfValue? [] v = .ok [] := by
  cases v with
  | null => rfl
  | array items =>
    obtain rfl : items = [] := h
    exact readOrDefault_eq_default rfl
  | string s => exact readOrDefault_blank h rfl
  | _ => exact h.elim

end

/-! ## Fields -/

section

variable {ρ : Type}

/-- A field that all values for the absence of its property fill alike, and leave as it is in a
blank record. -/
def Spares (vacancies : List (String × Vacancy)) (blank : ρ) (slot : Slot Value ρ) : Prop :=
  ∀ u ∈ vacancies.lookup slot.name, slot.required = false ∧
    ∃ f : ρ → ρ, f blank = blank ∧ ∀ v, u.Allows v → ∀ record, slot.fill v record = .ok (f record)

/-- A field that must be set is spared by every value for its absence, as there is none. -/
theorem spares_of_lookup_eq_none {vacancies : List (String × Vacancy)} {blank : ρ}
    {slot : Slot Value ρ} (h : vacancies.lookup slot.name = none) :
    Spares vacancies blank slot := by
  intro u hu
  rw [h] at hu
  exact nomatch hu

/-- A field spares a blank record if the values for its absence are read as what is in it. -/
theorem spares_optional {vacancies : List (String × Vacancy)} {blank : ρ} {α : Type} {name : String}
    {aliases : List String} {read : Value → Except Fault α} {put : α → ρ → ρ} {u : Vacancy} (a : α)
    (hLookup : vacancies.lookup name = some u) (h : ∀ v, u.Allows v → read v = .ok a)
    (hBlank : put a blank = blank) : Spares vacancies blank (.optional name aliases read put) := by
  intro u' hu'
  obtain rfl : u' = u := Option.some.inj ((Option.mem_def.1 hu').symm.trans hLookup)
  refine ⟨rfl, put a, hBlank, fun v hv record => ?_⟩
  change (do return put (← read v) record : Except Fault ρ) = _
  rw [h v hv]
  rfl

theorem Field.spares_record :
    ∀ slot ∈ Field.record.slots, Spares Field.vacancies Field.record.blank slot := by
  simp only [Field.record, List.forall_mem_cons]
  refine ⟨?name, ?label, ?hint, ?required, ?readOnly, ?relevance, ?constraint, ?destination,
    fun _ h => absurd h List.not_mem_nil⟩
  case name => exact spares_of_lookup_eq_none rfl
  case label | hint => exact spares_optional none rfl (fun _ => readLabel_of_allows) rfl
  case required | readOnly => exact spares_optional false rfl (fun _ => readFlag_of_allows) rfl
  case relevance | constraint | destination =>
    exact spares_optional none rfl (fun _ => readUnlessBlank_of_allows) rfl

/-- What every question has is left unset in the same ways, whatever the kind of the question. -/
theorem Kind.lookup_vacancies {kind : Kind} (hGroup : kind ≠ .group) (hBranch : kind ≠ .branch) :
    ∀ slot ∈ Field.record.slots,
      kind.vacancies.lookup slot.name = Field.vacancies.lookup slot.name := by
  cases kind with
  | group => exact absurd rfl hGroup
  | branch => exact absurd rfl hBranch
  | _ => decide

/-- The records of a control are spared by the values for the absence of its properties. -/
theorem Kind.HasPart.spares {room : Nat} {kind : Kind} {r : Record Value ρ}
    (h : kind.HasPart room r) : ∀ slot ∈ r.slots, Spares kind.vacancies r.blank slot := by
  cases h with
  | group =>
    simp only [Control.groupRecord, List.forall_mem_cons]
    refine ⟨spares_of_lookup_eq_none rfl, ?label, spares_of_lookup_eq_none rfl,
      fun _ h => absurd h List.not_mem_nil⟩
    case label => exact spares_optional none rfl (fun _ => readLabel_of_allows) rfl
  | branch =>
    simp only [Control.branchRecord, List.forall_mem_cons]
    refine ⟨?name, spares_of_lookup_eq_none rfl, fun _ h => absurd h List.not_mem_nil⟩
    case name => exact spares_optional none rfl (fun _ => readUnlessBlank_of_allows) rfl
  | text =>
    exact List.forall_mem_singleton.2 (spares_optional none rfl (fun _ => readBounds_of_allows) rfl)
  | numeric =>
    simp only [numericRecord, List.forall_mem_cons]
    refine ⟨?kind, ?range, fun _ h => absurd h List.not_mem_nil⟩
    case kind => exact spares_optional .integer rfl (fun _ => readNumericKind_of_allows) rfl
    case range => exact spares_optional none rfl (fun _ => readBounds_of_allows) rfl
  | media => exact List.forall_mem_singleton.2 (spares_of_lookup_eq_none rfl)
  | selectOne | selectMany =>
    exact List.forall_mem_singleton.2 (spares_optional [] rfl (fun _ => readChoices_of_allows) rfl)
  | field hGroup hBranch =>
    intro slot hSlot u hu
    rw [Kind.lookup_vacancies hGroup hBranch slot hSlot] at hu
    exact Field.spares_record slot hSlot u hu

/-- A field that reads a property is spared by each value for the absence of the property. -/
theorem Property.ReadBy.fill_of_vacant {kind : Kind} {p : Property} {slot : Slot Value ρ}
    {blank : ρ} (h : p.ReadBy slot) (hSpares : Spares kind.vacancies blank slot) :
    ∃ f : ρ → ρ, f blank = blank ∧ ∀ v, p.Vacant kind v →
      slot.required = false ∧ ∀ record, slot.fill v record = .ok (f record) := by
  -- the first of its keys names the field like the property
  have hName : slot.name = p.name := (List.cons.inj h.keys).1
  rw [Spares, hName] at hSpares
  cases hLookup : kind.vacancies.lookup p.name with
  | none =>
    refine ⟨id, rfl, fun v ⟨u, hu, _⟩ => ?_⟩
    rw [hLookup] at hu
    exact nomatch hu
  | some u =>
    obtain ⟨hOptional, f, hBlank, hFill⟩ := hSpares u hLookup
    refine ⟨f, hBlank, fun v ⟨u', hu', hAllows⟩ => ⟨hOptional, hFill v ?_⟩⟩
    rw [hLookup] at hu'
    rwa [Option.some.inj hu']

end

/-! ## Controls -/

/-- A key of a property is not that of the tag. -/
theorem Kind.not_mem_tag_keys (kind : Kind) {p : Property} (hp : p ∈ kind.properties) {key : String}
    (hKey : key ∈ p.keys) : key ∉ Property.tag.keys := by
  intro hTag
  obtain rfl := List.mem_singleton.1 hTag
  exact kind.type_not_mem_keys p hp hKey

namespace Control

variable {kind : Kind} {p : Property}

/-- What is left of a control is read alike with a value for the absence of a property and without
it, where nothing else is said of the property. -/
theorem toOption_ofBody_vacant (room : Nat) (hp : p ∈ kind.properties) {key : String}
    (hKey : key ∈ p.keys) {v : Value} (hVacant : p.Vacant kind v)
    {before after : List (String × Value)}
    (hOnce : Json.underKeys p.keys (before ++ after) = []) :
    (ofBody (ofValue room) kind (.members (apart (before ++ (key, v) :: after)))).toOption =
      (ofBody (ofValue room) kind (.members (apart (before ++ after)))).toOption := by
  refine toOption_ofBody_congr fun hPart =>
    hPart.isLawful.assemble_add fun slot hSlot hAnswers => ?_
  -- the field that answers to the key is the one that reads the property
  obtain ⟨ps, hFollows, hProperties⟩ := hPart.exists_follows
  obtain ⟨q, hq, hReadBy⟩ := exists_of_forall₂ hFollows hSlot
  have hMeans : key ∈ q.keys := hReadBy.keys ▸ Slot.answers_iff.1 hAnswers
  obtain rfl : p = q := Struct.eq_of_mem_keys (s := .control) (List.mem_cons_of_mem _ hp)
    (List.mem_cons_of_mem _ (hProperties hq)) hKey hMeans
  obtain ⟨f, hBlank, hFill⟩ := hReadBy.fill_of_vacant (hPart.spares slot hSlot)
  obtain ⟨hOptional, hFilled⟩ := hFill v hVacant
  refine ⟨?_, hOptional, ?_⟩
  · rw [Slot.contents, hReadBy.keys, hOnce]
  · rw [hFilled, hBlank]

/-- A member under another key than that of the tag tells nothing of the kind. -/
theorem tagAmong_add {key : String} (hTag : key ∉ Property.tag.keys) (v : Value)
    (before after : List (String × Value)) :
    tagAmong (before ++ (key, v) :: after) = tagAmong (before ++ after) := by
  rw [tagAmong, tagAmong, ← Json.underKeys_add hTag]

/-- A member that gives a value for the absence of a property may be left out, where no other gives
the property. -/
theorem alike_of_vacant_member {before after : List (String × Value)}
    (hAdmits : Struct.control.Admits kind (.object (before ++ after))) (hp : p ∈ kind.properties)
    {key : String} (hKey : key ∈ p.keys) {v : Value} (hVacant : p.Vacant kind v)
    (hOnce : Json.underKeys p.keys (before ++ after) = []) :
    Struct.control.Alike (.object (before ++ after)) (.object (before ++ (key, v) :: after)) := by
  refine alike_of_split (split?_object · _) (fun tag => ?_) (hAdmits rfl) fun room =>
    (toOption_ofBody_vacant room hp hKey hVacant hOnce).symm
  rw [split?_object, tagAmong_add (kind.not_mem_tag_keys hp hKey)]

/-- Members that leave a property unset may be replaced by each other, where no other gives the
property. -/
theorem alike_of_leavesUnset {before after said said' : List (String × Value)}
    (hAdmits : Struct.control.Admits kind (.object (before ++ (said ++ after))))
    (hp : p ∈ kind.properties) (hOnce : Json.underKeys p.keys (before ++ after) = [])
    (hSaid : LeavesUnset kind p said) (hSaid' : LeavesUnset kind p said') :
    Struct.control.Alike (.object (before ++ (said ++ after)))
      (.object (before ++ (said' ++ after))) := by
  -- both are read like the object without the property, which is of the same kind
  have hBare : Struct.control.Admits kind (.object (before ++ after)) := by
    cases hSaid with
    | absent => exact hAdmits
    | given hKey _ =>
      intro hControl
      rw [kindOf?_of_split (split?_object · _), ← tagAmong_add (kind.not_mem_tag_keys hp hKey),
        ← kindOf?_of_split (split?_object · _)]
      exact hAdmits hControl
  have hAlike : ∀ {ms : List (String × Value)}, LeavesUnset kind p ms →
      Struct.control.Alike (.object (before ++ after)) (.object (before ++ (ms ++ after))) := by
    intro ms hUnset
    cases hUnset with
    | absent => exact Struct.Alike.refl ..
    | given hKey hVacant => exact alike_of_vacant_member hBare hp hKey hVacant hOnce
  exact (hAlike hSaid).symm.trans (hAlike hSaid')

/-- Items that give values for the absence of their property may be replaced by each other. -/
theorem alike_of_vacant_items {tag : Value} {before after : List Value} {v w : Value}
    (hAdmits : Struct.control.Admits kind (.array (tag :: (before ++ v :: after))))
    (hp : kind.properties[before.length]? = some p) (hv : p.Vacant kind v) (hw : p.Vacant kind w) :
    Struct.control.Alike (.array (tag :: (before ++ v :: after)))
      (.array (tag :: (before ++ w :: after))) := by
  refine alike_of_split (split?_array tag _) (split?_array tag _) (hAdmits rfl) fun room => ?_
  obtain hNone | ⟨ρ, r, f, hPart, hFollows, hPlace⟩ := toOption_ofBody_items room kind
  · rw [hNone, hNone]
  -- whatever the items before have made of the record, both are put into it alike
  rw [hPlace, hPlace, Record.place_replace fun slot hSlot record => ?_]
  obtain ⟨q, hq, hReadBy⟩ := exists_getElem?_of_forall₂ hFollows hSlot
  obtain rfl := Option.some.inj (hp.symm.trans hq)
  obtain ⟨g, -, hFill⟩ :=
    hReadBy.fill_of_vacant (hPart.spares slot (List.mem_of_getElem? hSlot))
  rw [(hFill v hv).2, (hFill w hw).2]

/-- A last item that gives a value for the absence of its property may be left out. -/
theorem alike_of_vacant_last {tag : Value} {before : List Value} {v : Value}
    (hAdmits : Struct.control.Admits kind (.array (tag :: before)))
    (hp : kind.properties[before.length]? = some p) (hVacant : p.Vacant kind v) :
    Struct.control.Alike (.array (tag :: before)) (.array (tag :: (before ++ [v]))) := by
  refine alike_of_split (split?_array tag _) (split?_array tag _) (hAdmits rfl) fun room => ?_
  obtain hNone | ⟨ρ, r, f, hPart, hFollows, hPlace⟩ := toOption_ofBody_items room kind
  · rw [hNone, hNone]
  obtain ⟨slot, hSlot, hReadBy⟩ := exists_getElem?_of_forall₂ hFollows.flip hp
  obtain ⟨g, hBlank, hFill⟩ :=
    hReadBy.fill_of_vacant (hPart.spares slot (List.mem_of_getElem? hSlot))
  obtain ⟨hOptional, hFilled⟩ := hFill v hVacant
  -- the items before leave the place of the last one blank, as if it came first
  have hLeft : slot.fill v r.blank = .ok r.blank := by rw [hFilled, hBlank]
  rw [hPlace, hPlace, Record.place_append_eq hPart.isLawful.commutes hSlot hOptional hLeft]

end Control

end FormDesign
