import FormDesign.Proofs.Form.Vacancy

/-!
# Properties that are not set

However it is said in a form document that a property of a control is not set, the same form is
read, or none. It may be said at any depth, and the rest of the document may be whatever it is, also
something that no value can be read from.

## Main definitions

* `Interchanged`: one way not to set a property is interchanged with another, at any depth;
* `Form.Interchanged`: such an interchange in a form document.

## Main results

* `Interchanged.rel_value`: what is interchanged is read alike, where it can be read;
* `Form.ofJson_interchanged`: a form document is read as the same form after an interchange.
-/

namespace FormDesign

open Json (Value Tree Fault Record Slot StringToken Ending)

/-! ## Interchanges -/

/-- Whether what stands in a text may have the properties of a kind: what it is read as may. -/
def Struct.AdmitsIn (s : Struct) (room : Nat) (kind : Kind) (t : Tree) : Prop :=
  ∀ v, t.value room = .ok v → s.Admits kind v

/-- What stands in a text for the absence of a property of controls of a kind. -/
def Property.VacantIn (room : Nat) (kind : Kind) (p : Property) (t : Tree) : Prop :=
  ∃ v, t.value room = .ok v ∧ p.Vacant kind v

/-- Members in a text that leave a property of controls of a kind unset. -/
def LeavesUnsetIn (room : Nat) (kind : Kind) (p : Property) (said : List (StringToken × Tree)) :
    Prop :=
  ∃ ms, said.mapM (Tree.member room) = .ok ms ∧ LeavesUnset kind p ms

/-- One way not to set a property of a control is interchanged with another, at any depth. The ways
themselves must fit into the room that there is. -/
inductive Interchanged : Nat → Shape → Tree → Tree → Prop
  | symm {room : Nat} {sh : Shape} {t t' : Tree} (h : Interchanged room sh t t') :
    Interchanged room sh t' t
  /-- What the members of a control say of a property that they say nothing else of. -/
  | said {room : Nat} {kind : Kind} {p : Property}
      {before said said' after : List (StringToken × Tree)} {ending : Ending}
      (hAdmits : Struct.control.AdmitsIn (room + 1) kind
        (.object (before ++ (said ++ after)) ending))
      (hp : p ∈ kind.properties)
      (hOnce : ∀ m ∈ before ++ after, ∀ key ∈ p.keys, m.1.read ≠ .ok key)
      (hSaid : LeavesUnsetIn room kind p said) (hSaid' : LeavesUnsetIn room kind p said') :
      Interchanged (room + 1) (.struct .control) (.object (before ++ (said ++ after)) ending)
        (.object (before ++ (said' ++ after)) ending)
  /-- What stands for a property where a control is written as a list, behind its tag. -/
  | placed {room : Nat} {kind : Kind} {p : Property} {tag t t' : Tree} {before after : List Tree}
      {ending : Ending}
      (hAdmits : Struct.control.AdmitsIn (room + 1) kind
        (.array (tag :: (before ++ t :: after)) ending))
      (hp : kind.properties[before.length]? = some p) (ht : p.VacantIn room kind t)
      (ht' : p.VacantIn room kind t') :
      Interchanged (room + 1) (.struct .control) (.array (tag :: (before ++ t :: after)) ending)
        (.array (tag :: (before ++ t' :: after)) ending)
  /-- The last item of a control that is written as a list, which may be left out. -/
  | last {room : Nat} {kind : Kind} {p : Property} {tag t : Tree} {before : List Tree}
      {ending : Ending}
      (hAdmits : Struct.control.AdmitsIn (room + 1) kind (.array (tag :: before) ending))
      (hp : kind.properties[before.length]? = some p) (ht : p.VacantIn room kind t) :
      Interchanged (room + 1) (.struct .control) (.array (tag :: before) ending)
        (.array (tag :: (before ++ [t])) ending)
  /-- Inside what an object gives for a property. -/
  | member {room : Nat} {s : Struct} {kind : Kind} {p : Property}
      {before after : List (StringToken × Tree)} {token : StringToken} {key : String} {t t' : Tree}
      {ending : Ending}
      (hAdmits : s.AdmitsIn (room + 1) kind (.object (before ++ (token, t) :: after) ending))
      (hp : p ∈ s.properties kind) (hToken : token.read = .ok key) (hKey : key ∈ p.keys)
      (h : Interchanged room p.shape t t') :
      Interchanged (room + 1) (.struct s) (.object (before ++ (token, t) :: after) ending)
        (.object (before ++ (token, t') :: after) ending)
  /-- Inside what stands for a property where the properties are written as a list. -/
  | position {room : Nat} {s : Struct} {kind : Kind} {p : Property} {before after : List Tree}
      {t t' : Tree} {ending : Ending}
      (hAdmits : s.AdmitsIn (room + 1) kind (.array (before ++ t :: after) ending))
      (hp : (s.properties kind)[before.length]? = some p) (h : Interchanged room p.shape t t') :
      Interchanged (room + 1) (.struct s) (.array (before ++ t :: after) ending)
        (.array (before ++ t' :: after) ending)
  /-- Inside an item of a list. -/
  | item {room : Nat} {item : Shape} {before after : List Tree} {t t' : Tree} {ending : Ending}
      (h : Interchanged room item t t') :
      Interchanged (room + 1) (.list item) (.array (before ++ t :: after) ending)
        (.array (before ++ t' :: after) ending)

/-- An interchange in a form document, in one of its controls. Whatever else the document holds is
as it was. -/
inductive Form.Interchanged (room : Nat) : Tree → Tree → Prop
  | member {before after : List (StringToken × Tree)} {token : StringToken} {t t' : Tree}
      {ending : Ending} (hToken : token.read = .ok "controls")
      (h : FormDesign.Interchanged room (.list (.struct .control)) t t') :
      Interchanged room (.object (before ++ (token, t) :: after) ending)
        (.object (before ++ (token, t') :: after) ending)
  /-- The controls of a form that is written as a list stand behind its title. -/
  | position {title t t' : Tree} {after : List Tree} {ending : Ending}
      (h : FormDesign.Interchanged room (.list (.struct .control)) t t') :
      Interchanged room (.array (title :: t :: after) ending)
        (.array (title :: t' :: after) ending)

/-! ## Reading what is interchanged -/

section

variable {room : Nat} {kind : Kind} {p : Property}

/-- No member of a value has a key of a property that no member of its text has. -/
theorem underKeys_of_members {found : List (StringToken × Tree)} {ms : List (String × Value)}
    (h : found.mapM (Tree.member room) = .ok ms)
    (hOnce : ∀ m ∈ found, ∀ key ∈ p.keys, m.1.read ≠ .ok key) :
    Json.underKeys p.keys ms = [] :=
  Json.underKeys_eq_nil fun _ hMember hKey => by
    obtain ⟨f, hFound, hRead⟩ := Tree.exists_of_mem_members h hMember
    exact hOnce f hFound _ hKey hRead

/-- Two items that can be read as values that are related. -/
theorem rel_mapM_singleton {R : Value → Value → Prop} {t t' : Tree}
    (h : Option.Rel R (t.value room).toOption (t'.value room).toOption) :
    Option.Rel (fun vs ws => ∃ v w, vs = [v] ∧ ws = [w] ∧ R v w)
      ([t].mapM (Tree.value room)).toOption ([t'].mapM (Tree.value room)).toOption := by
  rw [toOption_mapM_singleton, toOption_mapM_singleton]
  exact rel_map h fun v w _ hR => ⟨v, w, rfl, rfl, hR⟩

/-- What is read as a control of a kind may have the properties of the kind. -/
theorem Struct.admitsIn_of_kindOf? (kind : Kind) {t : Tree} {v : Value}
    (hValue : t.value room = .ok v) (hKind : Control.kindOf? v = some kind) :
    Struct.control.AdmitsIn room kind t := by
  intro w hw
  obtain rfl := Except.ok.inj (hValue.symm.trans hw)
  exact Struct.admits_of_kindOf? kind hKind

/-- What members say of a property that is not set may be interchanged. -/
theorem rel_value_said {before said said' after : List (StringToken × Tree)} {ending : Ending}
    (hAdmits : Struct.control.AdmitsIn (room + 1) kind (.object (before ++ (said ++ after)) ending))
    (hp : p ∈ kind.properties)
    (hOnce : ∀ m ∈ before ++ after, ∀ key ∈ p.keys, m.1.read ≠ .ok key)
    (hSaid : LeavesUnsetIn room kind p said) (hSaid' : LeavesUnsetIn room kind p said') :
    Option.Rel Struct.control.Alike
      (Tree.value (room + 1) (.object (before ++ (said ++ after)) ending)).toOption
      (Tree.value (room + 1) (.object (before ++ (said' ++ after)) ending)).toOption := by
  obtain ⟨vs, hRead, hUnset⟩ := hSaid
  obtain ⟨ws, hRead', hUnset'⟩ := hSaid'
  have hRel : Option.Rel (fun vs ws => LeavesUnset kind p vs ∧ LeavesUnset kind p ws)
      (said.mapM (Tree.member room)).toOption (said'.mapM (Tree.member room)).toOption := by
    rw [hRead, hRead']
    exact .some ⟨hUnset, hUnset'⟩
  refine Tree.rel_value_object hRel fun ms vs ws ns hBefore hAfter hUnset hValue => ?_
  -- the keys of the other members are those of their tokens, none of which means the property
  have hNothing : Json.underKeys p.keys (ms ++ ns) = [] := by
    rw [Json.underKeys_append,
      underKeys_of_members hBefore fun m hm => hOnce m (List.mem_append_left _ hm),
      underKeys_of_members hAfter fun m hm => hOnce m (List.mem_append_right _ hm)]
    rfl
  exact Control.alike_of_leavesUnset (hAdmits _ hValue) hp hNothing hUnset.1 hUnset.2

/-- What stands in a list for a property that is not set may be interchanged. -/
theorem rel_value_placed {tag t t' : Tree} {before after : List Tree} {ending : Ending}
    (hAdmits : Struct.control.AdmitsIn (room + 1) kind
      (.array (tag :: (before ++ t :: after)) ending))
    (hp : kind.properties[before.length]? = some p) (ht : p.VacantIn room kind t)
    (ht' : p.VacantIn room kind t') :
    Option.Rel Struct.control.Alike
      (Tree.value (room + 1) (.array (tag :: (before ++ t :: after)) ending)).toOption
      (Tree.value (room + 1) (.array (tag :: (before ++ t' :: after)) ending)).toOption := by
  obtain ⟨v, hRead, hVacant⟩ := ht
  obtain ⟨w, hRead', hVacant'⟩ := ht'
  have hRel : Option.Rel (fun v w => p.Vacant kind v ∧ p.Vacant kind w)
      (t.value room).toOption (t'.value room).toOption := by
    rw [hRead, hRead']
    exact .some ⟨hVacant, hVacant'⟩
  have hPlaced : Option.Rel Struct.control.Alike
      (Tree.value (room + 1) (.array (tag :: before ++ ([t] ++ after)) ending)).toOption
      (Tree.value (room + 1) (.array (tag :: before ++ ([t'] ++ after)) ending)).toOption := by
    refine Tree.rel_value_array (rel_mapM_singleton hRel)
      fun first vs ws later hBefore _ hItems hValue => ?_
    obtain ⟨v, w, rfl, rfl, hv, hw⟩ := hItems
    cases mapM_eq_ok_iff.1 hBefore with
    | cons _ hOthers =>
      rw [hOthers.length_eq] at hp
      exact Control.alike_of_vacant_items (hAdmits _ hValue) hp hv hw
  exact hPlaced

/-- What stands last in a list for a property that is not set may be left out. -/
theorem rel_value_last {tag t : Tree} {before : List Tree} {ending : Ending}
    (hAdmits : Struct.control.AdmitsIn (room + 1) kind (.array (tag :: before) ending))
    (hp : kind.properties[before.length]? = some p) (ht : p.VacantIn room kind t) :
    Option.Rel Struct.control.Alike
      (Tree.value (room + 1) (.array (tag :: before) ending)).toOption
      (Tree.value (room + 1) (.array (tag :: (before ++ [t])) ending)).toOption := by
  obtain ⟨v, hRead, hVacant⟩ := ht
  have hRel : Option.Rel (fun vs ws => vs = [] ∧ ∃ v, ws = [v] ∧ p.Vacant kind v)
      (([] : List Tree).mapM (Tree.value room)).toOption
        ([t].mapM (Tree.value room)).toOption := by
    rw [toOption_mapM_singleton, hRead]
    exact .some ⟨rfl, v, rfl, hVacant⟩
  -- the list without the item is one in which nothing stands in its place
  have hBare : tag :: before ++ ([] ++ []) = tag :: before := List.append_nil _
  have hLast : Option.Rel Struct.control.Alike
      (Tree.value (room + 1) (.array (tag :: before ++ ([] ++ [])) ending)).toOption
      (Tree.value (room + 1) (.array (tag :: before ++ ([t] ++ [])) ending)).toOption := by
    refine Tree.rel_value_array hRel fun first vs ws later hBefore hAfter hItems hValue => ?_
    obtain ⟨rfl, v, rfl, hv⟩ := hItems
    obtain rfl : [] = later := Except.ok.inj hAfter
    cases mapM_eq_ok_iff.1 hBefore with
    | cons _ hOthers =>
      rw [hOthers.length_eq] at hp
      rw [hBare, List.nil_append, List.append_nil] at hValue
      rw [List.nil_append, List.append_nil]
      exact Control.alike_of_vacant_last (hAdmits _ hValue) hp hv
  rw [hBare] at hLast
  exact hLast

/-- Objects are read alike when they differ in what they give for a property, and that is. -/
theorem rel_value_member {s : Struct} {before after : List (StringToken × Tree)}
    {token : StringToken} {key : String} {t t' : Tree} {ending : Ending}
    (hAdmits : s.AdmitsIn (room + 1) kind (.object (before ++ (token, t) :: after) ending))
    (hp : p ∈ s.properties kind) (hToken : token.read = .ok key) (hKey : key ∈ p.keys)
    (h : Option.Rel p.shape.Alike (t.value room).toOption (t'.value room).toOption) :
    Option.Rel s.Alike
      (Tree.value (room + 1) (.object (before ++ (token, t) :: after) ending)).toOption
      (Tree.value (room + 1) (.object (before ++ (token, t') :: after) ending)).toOption := by
  have hRel : Option.Rel (fun vs ws => ∃ v w, vs = [(key, v)] ∧ ws = [(key, w)] ∧
      p.shape.Alike v w) ([(token, t)].mapM (Tree.member room)).toOption
        ([(token, t')].mapM (Tree.member room)).toOption := by
    rw [toOption_mapM_singleton, toOption_mapM_singleton, Tree.toOption_member hToken,
      Tree.toOption_member hToken, Option.map_map, Option.map_map]
    exact rel_map h fun v w _ hAlike => ⟨v, w, rfl, rfl, hAlike⟩
  refine Tree.rel_value_object hRel fun ms vs ws ns _ _ hMembers hValue => ?_
  obtain ⟨v, w, rfl, rfl, hAlike⟩ := hMembers
  exact Struct.alike_of_member (hAdmits _ hValue) hp hKey hAlike

/-- Lists are read alike as objects when they differ in what stands for a property, and that is. -/
theorem rel_value_position {s : Struct} {before after : List Tree} {t t' : Tree} {ending : Ending}
    (hAdmits : s.AdmitsIn (room + 1) kind (.array (before ++ t :: after) ending))
    (hp : (s.properties kind)[before.length]? = some p)
    (h : Option.Rel p.shape.Alike (t.value room).toOption (t'.value room).toOption) :
    Option.Rel s.Alike (Tree.value (room + 1) (.array (before ++ t :: after) ending)).toOption
      (Tree.value (room + 1) (.array (before ++ t' :: after) ending)).toOption := by
  refine Tree.rel_value_array (rel_mapM_singleton h)
    fun first vs ws later hBefore _ hItems hValue => ?_
  obtain ⟨v, w, rfl, rfl, hAlike⟩ := hItems
  rw [(mapM_eq_ok_iff.1 hBefore).length_eq] at hp
  refine Struct.alike_of_item (hAdmits _ hValue) fun q hq => ?_
  obtain rfl := Option.some.inj (hp.symm.trans hq)
  exact hAlike

/-- What is interchanged is read alike, where it can be read at all. -/
theorem Interchanged.rel_value {sh : Shape} {t t' : Tree} (h : Interchanged room sh t t') :
    Option.Rel sh.Alike (t.value room).toOption (t'.value room).toOption := by
  induction h with
  | symm _ ih => exact rel_symm (fun _ _ => Shape.Alike.symm) ih
  | said hAdmits hp hOnce hSaid hSaid' => exact rel_value_said hAdmits hp hOnce hSaid hSaid'
  | placed hAdmits hp ht ht' => exact rel_value_placed hAdmits hp ht ht'
  | last hAdmits hp ht => exact rel_value_last hAdmits hp ht
  | member hAdmits hp hToken hKey _ ih => exact rel_value_member hAdmits hp hToken hKey ih
  | position hAdmits hp _ ih => exact rel_value_position hAdmits hp ih
  | @item room item before after t t' ending _ ih =>
    refine Tree.rel_value_array (rel_mapM_singleton ih)
      fun first vs ws later _ _ hItems _ => ?_
    obtain ⟨v, w, rfl, rfl, hAlike⟩ := hItems
    exact hAlike.item first later

/-- A list of controls is read as the same controls after an interchange. -/
theorem Control.toOption_list_interchanged {t t' : Tree}
    (h : Interchanged room (.list (.struct .control)) t t') :
    (Tree.list read room t).toOption = (Tree.list read room t').toOption := by
  rw [toOption_list, toOption_list]
  exact bind_eq_of_rel h.rel_value fun v w hAlike =>
    hAlike.toOption_listOf fun v w hItem => (hItem (room - 1)).2

end

namespace Form

/-- A form is read as the same form after an interchange. -/
theorem toOption_read_interchanged {room : Nat} {t t' : Tree} (h : Interchanged room t t') :
    (read (room + 1) t).toOption = (read (room + 1) t').toOption := by
  -- the field of the controls reads the one list like the other
  have hFill : ∀ {t t' : Tree}, FormDesign.Interchanged room (.list (.struct .control)) t t' →
      ∀ form : Form, (do return { form with controls := ← Tree.list Control.read room t } :
        Except Fault Form).toOption =
          (do return { form with controls := ← Tree.list Control.read room t' } :
            Except Fault Form).toOption := fun h form => by
    rw [toOption_bind, toOption_bind, Control.toOption_list_interchanged h]
  cases h with
  | member hToken h =>
    exact Tree.toOption_recordOf_member (r := record room) (hFill h) hToken rfl _ _ _
  | @position title _ _ after ending h =>
    -- the controls are the second field, behind the title
    have hSecond : (record room).slots[[title].length]? = _ := rfl
    exact Tree.toOption_recordOf_item (r := record room) (hFill h) hSecond after ending

/-- A form document is read as the same form with one way not to set a property as with another, or
in neither case. -/
theorem ofJson_interchanged {s s' : String} {t t' : Tree} {rest : List Json.Token}
    (hs : Tree.ofTokens (Json.tokens s) = (t, rest))
    (hs' : Tree.ofTokens (Json.tokens s') = (t', rest))
    (h : Interchanged (Json.maxRoom - 1) t t') (form : Form) :
    ofJson s = .ok form ↔ ofJson s' = .ok form := by
  -- one bracket is open inside the form
  have hRead : (read Json.maxRoom t).toOption = (read Json.maxRoom t').toOption :=
    toOption_read_interchanged h
  rw [← toOption_eq_some_iff, ← toOption_eq_some_iff, ofJson, ofJson, Json.readText,
    Json.readText, hs, hs', toOption_bind, toOption_bind, hRead]

/-- A form with a group in which a text is asked for. -/
def home : Form where
  title := "Visit"
  controls := [.group "home" none [.question (.named "note") (.text none)]]

/-- The members of the question, given what they say of properties that are not set. -/
def noteMembers (said : List (String × Value)) : List (String × Value) :=
  [("type", .string "inputText"), ("name", .string "note")] ++ (said ++ [])

/-- The members of the group, given what they and those of the question say of properties that are
not set. -/
def homeMembers (said inside : List (String × Value)) : List (String × Value) :=
  [("type", .string "group"), ("name", .string "home")] ++
    (said ++ [("children", .array [.object (noteMembers inside)])])

/-- A document of `home`, given what the group and the question say of properties that are not
set. -/
def homeDocument (said inside : List (String × Value)) : Value :=
  .object [("title", .string "Visit"), ("controls", .array [.object (homeMembers said inside)])]

/-- What a label says that has no text. -/
def hollowLabel : List (String × Value) :=
  [("label", .object [("en", .string "")])]

/-- What an older document says of a length that is not set. -/
def noLength : List (String × Value) :=
  [("Length", .bool false)]

/-- No member of an object that is written out has a key that none of its members has. -/
theorem read_ne_of_mem_ofMembers {keys : List String} {members : List (String × Value)}
    (h : ∀ member ∈ members, member.1 ∉ keys) :
    ∀ m ∈ Tree.ofMembers members, ∀ key ∈ keys, m.1.read ≠ .ok key := by
  intro m hm key hKey hRead
  rw [Tree.ofMembers_eq_map] at hm
  obtain ⟨member, hMember, rfl⟩ := List.mem_map.1 hm
  rw [Json.read_ofString] at hRead
  obtain rfl := Except.ok.inj hRead
  exact h member hMember hKey

/-- A control in a document of the form may be interchanged with another. -/
theorem interchanged_document {t t' : Tree}
    (h : FormDesign.Interchanged 125 (.struct .control) t t') :
    Interchanged 126
      (.object (Tree.ofMembers [("title", .string "Visit")] ++
        (.ofString "controls", .array ([] ++ t :: []) .closed) :: []) .closed)
      (.object (Tree.ofMembers [("title", .string "Visit")] ++
        (.ofString "controls", .array ([] ++ t' :: []) .closed) :: []) .closed) :=
  .member (Json.read_ofString _) (.item h)

/-- A label without text may be left out of the group. -/
theorem interchanged_label : Interchanged 126 (.ofValue (homeDocument hollowLabel noLength))
    (.ofValue (homeDocument [] noLength)) := by
  have hAdmits : Struct.control.AdmitsIn 125 .group
      (.ofValue (.object (homeMembers hollowLabel noLength))) :=
    Struct.admitsIn_of_kindOf? .group
      (v := .object (homeMembers hollowLabel noLength)) rfl rfl
  have hOnce : ∀ member ∈ homeMembers [] noLength, member.1 ∉ ["label", "Label"] := by decide
  have hVacant :
      Property.Vacant .group ⟨"label", ["Label"], .texts⟩ (.object [("en", .string "")]) :=
    ⟨.texts, rfl, fun _ hMember => List.mem_singleton.1 hMember ▸ rfl⟩
  have hGroup : FormDesign.Interchanged 125 (.struct .control)
      (.object (Tree.ofMembers [("type", .string "group"), ("name", .string "home")] ++
        (Tree.ofMembers hollowLabel ++
          Tree.ofMembers [("children", .array [.object (noteMembers noLength)])])) .closed)
      (.object (Tree.ofMembers [("type", .string "group"), ("name", .string "home")] ++
        ([] ++ Tree.ofMembers [("children", .array [.object (noteMembers noLength)])])) .closed) :=
    .said (p := ⟨"label", ["Label"], .texts⟩) hAdmits (by decide) (read_ne_of_mem_ofMembers hOnce)
      ⟨hollowLabel, rfl, .given (by decide) hVacant⟩ ⟨[], rfl, .absent⟩
  exact interchanged_document hGroup

/-- A length that is false may be left out of the question in the group. -/
theorem interchanged_length : Interchanged 126 (.ofValue (homeDocument [] noLength))
    (.ofValue (homeDocument [] [])) := by
  have hAdmits : Struct.control.AdmitsIn 123 .text (.ofValue (.object (noteMembers noLength))) :=
    Struct.admitsIn_of_kindOf? .text (v := .object (noteMembers noLength)) rfl rfl
  have hOuter : Struct.control.AdmitsIn 125 .group (.ofValue (.object (homeMembers [] noLength))) :=
    Struct.admitsIn_of_kindOf? .group (v := .object (homeMembers [] noLength)) rfl rfl
  have hOnce : ∀ member ∈ noteMembers [], member.1 ∉ ["length", "Length"] := by decide
  have hVacant : Property.Vacant .text ⟨"length", ["Length"], .struct .bounds⟩ (.bool false) :=
    ⟨.off, rfl, rfl⟩
  have hNote : FormDesign.Interchanged 123 (.struct .control)
      (.object (Tree.ofMembers [("type", .string "inputText"), ("name", .string "note")] ++
        (Tree.ofMembers noLength ++ [])) .closed)
      (.object (Tree.ofMembers [("type", .string "inputText"), ("name", .string "note")] ++
        ([] ++ [])) .closed) :=
    .said (p := ⟨"length", ["Length"], .struct .bounds⟩) hAdmits (by decide)
      (read_ne_of_mem_ofMembers hOnce) ⟨noLength, rfl, .given (by decide) hVacant⟩
      ⟨[], rfl, .absent⟩
  have hGroup : FormDesign.Interchanged 125 (.struct .control)
      (.object (Tree.ofMembers [("type", .string "group"), ("name", .string "home")] ++
        (.ofString "children", .array ([] ++ .ofValue (.object (noteMembers noLength)) :: [])
          .closed) :: []) .closed)
      (.object (Tree.ofMembers [("type", .string "group"), ("name", .string "home")] ++
        (.ofString "children", .array ([] ++ .ofValue (.object (noteMembers [])) :: [])
          .closed) :: []) .closed) :=
    .member (p := ⟨"children", [], .list (.struct .control)⟩) hOuter
      (List.mem_of_elem_eq_true rfl) (Json.read_ofString _) (List.mem_singleton.2 rfl) (.item hNote)
  exact interchanged_document hGroup

theorem ofJson_interchanged_home :
    Interchanged (Json.maxRoom - 1) (.ofValue (homeDocument hollowLabel noLength))
        (.ofValue (homeDocument [] noLength)) ∧
      Interchanged (Json.maxRoom - 1) (.ofValue (homeDocument [] noLength))
        (.ofValue (homeDocument [] [])) ∧
      ofJson (homeDocument hollowLabel noLength).compact = .ok home ∧
      ofJson (homeDocument [] noLength).compact = .ok home ∧
      ofJson (homeDocument [] []).compact = .ok home := by
  have hText : Json.readText Tree.value (homeDocument [] []).compact = .ok (homeDocument [] []) :=
    (Json.readText_print Tree.value .compact _).trans rfl
  have hBare : ofJson (homeDocument [] []).compact = .ok home := by
    rw [← toOption_eq_some_iff, toOption_ofJson hText]
    rfl
  have hLength : ofJson (homeDocument [] noLength).compact = .ok home :=
    (ofJson_interchanged (Json.ofTokens_print .compact _) (Json.ofTokens_print .compact _)
      interchanged_length home).2 hBare
  have hLabel : ofJson (homeDocument hollowLabel noLength).compact = .ok home :=
    (ofJson_interchanged (Json.ofTokens_print .compact _) (Json.ofTokens_print .compact _)
      interchanged_label home).2 hLength
  exact ⟨interchanged_label, interchanged_length, hLabel, hLength, hBare⟩

end Form

end FormDesign
