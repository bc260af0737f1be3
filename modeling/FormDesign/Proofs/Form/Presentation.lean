import FormDesign.Proofs.Control.Normal
import FormDesign.Proofs.Form.Duplicates
import Mathlib.Data.List.Perm.Basic

/-!
# Presentation

The same properties may be written in many ways: in another order, under their names or under older
ones, and with other members among them. However the objects of a form document are written, at any
depth, the same form is read, or none in either case.

## Main definitions

* `Step`: one object or localized text is written in another way;
* `Restated`: steps at any depth, back and forth.

## Main results

* `LocalizedText.ofValue?_reorder`: the order of languages does not count;
* `Restated.alike`: what is written in another way is read alike;
* `Form.reads_properties`: a form document is read as its properties say.
-/

namespace FormDesign

open Json (Value Tree Fault Record Slot)

/-! ## Languages in another order -/

/-- Entries of different keys may be inserted in either order. -/
theorem insertEntry_comm {key key' : String} (h : key ≠ key') (value value' : String)
    (entries : List (String × String)) :
    insertEntry key' value' (insertEntry key value entries) =
      insertEntry key value (insertEntry key' value' entries) := by
  induction entries with
  | nil =>
    simp only [insertEntry]
    split_ifs <;> grind
  | cons entry entries ih =>
    -- each key comes before the entry, replaces it or goes behind it
    simp only [insertEntry]
    split_ifs <;> grind [insertEntry]

namespace LocalizedText

theorem insert_comm {language language' : String} (h : language ≠ language') (text text' : String)
    (t : LocalizedText) :
    (t.insert language text).insert language' text' =
      (t.insert language' text').insert language text :=
  eq_of_entries_eq (insertEntry_comm h text text' t.entries)

/-- The order of languages does not count. -/
theorem ofValue?_reorder {language language' : String} (h : language ≠ language') (v w : Value)
    (before after : List (String × Value)) :
    ofValue? (.object (before ++ (language, v) :: (language', w) :: after)) =
      ofValue? (.object (before ++ (language', w) :: (language, v) :: after)) := by
  have hList : ∀ first later : List (String × String), ∀ text text' : String,
      ofList (first ++ (language, text) :: (language', text') :: later) =
        ofList (first ++ (language', text') :: (language, text) :: later) :=
    fun first later text text' => by
      simp only [ofList, List.foldl_append, List.foldl_cons, insert_comm h]
  simp only [ofValue?_object, List.mapM_append, List.mapM_cons, entry?]
  generalize before.mapM entry? = first, after.mapM entry? = later,
    (Value.text v).toOption = text, (Value.text w).toOption = text'
  -- where one of the members is no text, neither order is read
  cases first <;> cases text <;> cases text' <;> cases later <;> try rfl
  exact congrArg some (hList _ _ _ _)

end LocalizedText

/-! ## Steps -/

/-- One object or localized text is written in another way. -/
inductive Step : Shape → Value → Value → Prop
  /-- The members of an object stand in another order. -/
  | move {s : Struct} {ms ns : List (String × Value)} (h : ms.Perm ns) :
      Step (.struct s) (.object ms) (.object ns)
  /-- A property is given under another of its keys. -/
  | respell {s : Struct} {kind : Kind} {p : Property} {before after : List (String × Value)}
      {key key' : String} {v : Value}
      (hAdmits : s.Admits kind (.object (before ++ (key, v) :: after)))
      (hp : p ∈ s.properties kind) (hKey : key ∈ p.keys) (hKey' : key' ∈ p.keys) :
      Step (.struct s) (.object (before ++ (key, v) :: after))
        (.object (before ++ (key', v) :: after))
  /-- A member is added that is no property. -/
  | add {s : Struct} {kind : Kind} {before after : List (String × Value)} {key : String} {v : Value}
      (hAdmits : s.Admits kind (.object (before ++ after)))
      (hKey : ∀ p ∈ s.properties kind, key ∉ p.keys) :
      Step (.struct s) (.object (before ++ after)) (.object (before ++ (key, v) :: after))
  /-- Two languages of a localized text stand in another order. -/
  | reorder {before after : List (String × Value)} {language language' : String} {v w : Value}
      (h : language ≠ language') :
      Step .texts (.object (before ++ (language, v) :: (language', w) :: after))
        (.object (before ++ (language', w) :: (language, v) :: after))

/-- A value is written in another way, by steps at any depth, back and forth. -/
inductive Restated : Shape → Value → Value → Prop
  | refl (sh : Shape) (v : Value) : Restated sh v v
  | symm {sh : Shape} {v w : Value} (h : Restated sh v w) : Restated sh w v
  | trans {sh : Shape} {u v w : Value} (huv : Restated sh u v) (hvw : Restated sh v w) :
      Restated sh u w
  | step {sh : Shape} {v w : Value} (h : Step sh v w) : Restated sh v w
  /-- What an object gives for a property is written in another way. -/
  | member {s : Struct} {kind : Kind} {p : Property} {before after : List (String × Value)}
      {key : String} {v w : Value}
      (hAdmits : s.Admits kind (.object (before ++ (key, v) :: after)))
      (hp : p ∈ s.properties kind) (hKey : key ∈ p.keys) (h : Restated p.shape v w) :
      Restated (.struct s) (.object (before ++ (key, v) :: after))
        (.object (before ++ (key, w) :: after))
  /-- What stands for a property where the properties are written as a list is written in another
  way. -/
  | position {s : Struct} {kind : Kind} {p : Property} {before after : List Value} {v w : Value}
      (hAdmits : s.Admits kind (.array (before ++ v :: after)))
      (hp : (s.properties kind)[before.length]? = some p) (h : Restated p.shape v w) :
      Restated (.struct s) (.array (before ++ v :: after)) (.array (before ++ w :: after))
  /-- An item of a list is written in another way. -/
  | item {item : Shape} {before after : List Value} {v w : Value} (h : Restated item v w) :
      Restated (.list item) (.array (before ++ v :: after)) (.array (before ++ w :: after))

/-! ## What is said of properties -/

/-- Things in another order are said as often, and one thing has no other order. -/
theorem toldAlike_of_perm (sh : Shape) {cs ds : List Value} (h : cs.Perm ds) :
    ToldAlike sh cs ds := by
  refine ⟨h.length_eq, fun c d hc hd => ?_⟩
  rw [hc, hd, List.perm_singleton, List.singleton_inj] at h
  exact h ▸ Shape.Alike.refl sh c

theorem perm_underKeys (keys : List String) {ms ns : List (String × Value)} (h : ms.Perm ns) :
    (Json.underKeys keys ms).Perm (Json.underKeys keys ns) :=
  (h.filter _).map _

/-- A key may be replaced by one that means the same. -/
theorem underKeys_respell {keys : List String} {key key' : String} (h : key ∈ keys ↔ key' ∈ keys)
    (v : Value) (before after : List (String × Value)) :
    Json.underKeys keys (before ++ (key, v) :: after) =
      Json.underKeys keys (before ++ (key', v) :: after) := by
  rw [Json.underKeys_append, Json.underKeys_append, Json.underKeys_cons, Json.underKeys_cons]
  simp only [h]

/-! ## Reading what is written in another way -/

/-- A step makes no difference to a reader. -/
theorem Step.alike {sh : Shape} {v w : Value} (h : Step sh v w) : sh.Alike v w := by
  cases h with
  | @move s ms ns h =>
    -- whatever kind the object tells, each of its properties is said as before
    have hAdmits : s.Admits ((Control.kindOf? (.object ms)).getD .group) (.object ms) :=
      fun _ k hk => by rw [Option.mem_def.1 hk, Option.getD_some]
    exact Struct.alike_of_members hAdmits fun p _ =>
      toldAlike_of_perm p.shape (perm_underKeys p.keys h)
  | @respell s kind p before after key key' v hAdmits hp hKey hKey' =>
    refine Struct.alike_of_members hAdmits fun q hq => ?_
    -- another property has neither of the keys
    have hMeans : key ∈ q.keys ↔ key' ∈ q.keys :=
      ⟨fun h => Struct.eq_of_mem_keys hp hq hKey h ▸ hKey',
        fun h => Struct.eq_of_mem_keys hp hq hKey' h ▸ hKey⟩
    rw [underKeys_respell hMeans]
    exact toldAlike_refl q.shape _
  | @add s kind before after key v hAdmits hKey =>
    refine Struct.alike_of_members hAdmits fun q hq => ?_
    rw [Json.underKeys_add (hKey q hq) v]
    exact toldAlike_refl q.shape _
  | @reorder before after language language' v w h =>
    have hTexts := LocalizedText.ofValue?_reorder h v w before after
    refine ⟨?_, hTexts⟩
    rw [readLabel_object, readLabel_object, hTexts]

/-- What is written in another way is read alike. -/
theorem Restated.alike {sh : Shape} {v w : Value} (h : Restated sh v w) : sh.Alike v w := by
  induction h with
  | refl sh v => exact Shape.Alike.refl sh v
  | symm _ ih => exact ih.symm
  | trans _ _ ihFirst ihSecond => exact ihFirst.trans ihSecond
  | step h => exact h.alike
  | member hAdmits hp hKey _ ih => exact Struct.alike_of_member hAdmits hp hKey ih
  | @position s kind p before after v w hAdmits hp _ ih =>
    -- an item stands for one property, which its place tells
    refine Struct.alike_of_item hAdmits fun q hq => ?_
    obtain rfl := Option.some.inj (hp.symm.trans hq)
    exact ih
  | item _ ih => exact .item ih _ _

namespace Form

/-- Documents of forms in which the same properties are written in other ways are read as the same
form or not at all, and a document in which an object gives a property twice is not read. -/
theorem reads_properties :
    (∀ (s t : String) (v w : Value), Json.readText Tree.value s = .ok v →
      Json.readText Tree.value t = .ok w → Restated (.struct .form) v w →
        ∀ form : Form, ofJson s = .ok form ↔ ofJson t = .ok form) ∧
    ∀ (s : String) (v : Value), Json.readText Tree.value s = .ok v →
      Doubled (.struct .form) v → ∀ form : Form, ofJson s ≠ .ok form := by
  refine ⟨fun s t v w hs ht h form => ?_, fun s v hs h form hForm => ?_⟩
  · rw [← toOption_eq_some_iff, ← toOption_eq_some_iff, toOption_ofJson hs, toOption_ofJson ht,
      h.alike Json.maxRoom]
  · rw [← toOption_eq_some_iff, toOption_ofJson hs, h.refuses Json.maxRoom] at hForm
    exact nomatch hForm

/-- A form with one question. -/
def visit : Form where
  title := "Visit"
  controls := [.question { Field.named "day" with
    label := some ⟨[("en", "Day"), ("fr", "Jour")], by decide⟩ } .date]

/-- A document of `visit`. -/
def visitDocument : Value :=
  .object [
    ("title", .string "Visit"),
    ("controls", .array [
      .object [
        ("type", .string "inputDate"),
        ("name", .string "day"),
        ("label", .object [("en", .string "Day"), ("fr", .string "Jour")])]])]

/-- The document with everything in another order, older names and a member that is no property. -/
def visitRestated : Value :=
  .object [
    ("controls", .array [
      .object [
        ("Label", .object [("fr", .string "Jour"), ("en", .string "Day")]),
        ("colour", .string "red"),
        ("Name", .string "day"),
        ("type", .string "inputDate")]]),
    ("title", .string "Visit")]

/-- The document with the name given twice, under both of its keys. -/
def visitDoubled : Value :=
  .object [
    ("title", .string "Visit"),
    ("controls", .array [
      .object [
        ("type", .string "inputDate"),
        ("name", .string "day"),
        ("Name", .string "day")]])]

/-- The properties of the question are given in one document as in the other. -/
theorem restated_visit : Restated (.struct .form) visitDocument visitRestated := by
  have hLabel : Restated .texts
      (.object ([] ++ ("en", .string "Day") :: ("fr", .string "Jour") :: []))
      (.object ([] ++ ("fr", .string "Jour") :: ("en", .string "Day") :: [])) :=
    .step (.reorder (by decide))
  have hRelabel : Restated (.struct .control)
      (.object ([("type", .string "inputDate"), ("name", .string "day")] ++
        ("label", .object [("en", .string "Day"), ("fr", .string "Jour")]) :: []))
      (.object ([("type", .string "inputDate"), ("name", .string "day")] ++
        ("label", .object [("fr", .string "Jour"), ("en", .string "Day")]) :: [])) :=
    .member (p := ⟨"label", ["Label"], .texts⟩) (Struct.admits_of_kindOf? .date rfl) (by decide)
      (by decide) hLabel
  have hName : ∀ label : Value, Restated (.struct .control)
      (.object ([("type", .string "inputDate")] ++ ("name", .string "day") :: [("label", label)]))
      (.object ([("type", .string "inputDate")] ++
        ("Name", .string "day") :: [("label", label)])) :=
    fun label => .step (.respell (p := ⟨"name", ["Name"], .plain⟩)
      (Struct.admits_of_kindOf? .date rfl) (by decide) (by decide) (by decide))
  have hOlder : ∀ label : Value, Restated (.struct .control)
      (.object ([("type", .string "inputDate"), ("Name", .string "day")] ++ ("label", label) :: []))
      (.object ([("type", .string "inputDate"), ("Name", .string "day")] ++
        ("Label", label) :: [])) :=
    fun label => .step (.respell (p := ⟨"label", ["Label"], .texts⟩)
      (Struct.admits_of_kindOf? .date rfl) (by decide) (by decide) (by decide))
  have hColour : ∀ label : Value, Restated (.struct .control)
      (.object ([("type", .string "inputDate"), ("Name", .string "day")] ++ [("Label", label)]))
      (.object ([("type", .string "inputDate"), ("Name", .string "day")] ++
        ("colour", .string "red") :: [("Label", label)])) :=
    fun label => .step (.add (Struct.admits_of_kindOf? .date rfl) (by decide))
  have hMove : ∀ label : Value, Restated (.struct .control)
      (.object [("type", .string "inputDate"), ("Name", .string "day"), ("colour", .string "red"),
        ("Label", label)])
      (.object [("Label", label), ("colour", .string "red"), ("Name", .string "day"),
        ("type", .string "inputDate")]) :=
    fun label => .step (.move (List.reverse_perm _).symm)
  have hQuestion := hRelabel.trans <| (hName _).trans <| (hOlder _).trans <|
    (hColour _).trans (hMove _)
  have hAdmits : ∀ v : Value, Struct.form.Admits .date v := fun _ h => nomatch h
  have hControls : Restated (.struct .form)
      (.object ([("title", .string "Visit")] ++ ("controls", .array ([] ++ _ :: [])) :: []))
      (.object ([("title", .string "Visit")] ++ ("controls", .array ([] ++ _ :: [])) :: [])) :=
    .member (p := ⟨"controls", [], .list (.struct .control)⟩) (hAdmits _) (by decide) (by decide)
      (.item hQuestion)
  exact hControls.trans (.step (.move (List.Perm.swap _ _ _)))

theorem reads_properties_visit :
    Restated (.struct .form) visitDocument visitRestated ∧
      ofJson visitDocument.compact = .ok visit ∧ ofJson visitRestated.compact = .ok visit ∧
      Doubled (.struct .form) visitDoubled ∧
      ∀ form : Form, ofJson visitDoubled.compact ≠ .ok form := by
  have hText : ∀ v : Value, Tree.value Json.maxRoom (.ofValue v) = .ok v →
      Json.readText Tree.value v.compact = .ok v := fun v hv =>
    (Json.readText_print Tree.value .compact v).trans hv
  have hDocument : Json.readText Tree.value visitDocument.compact = .ok visitDocument :=
    hText visitDocument rfl
  have hRestated : Json.readText Tree.value visitRestated.compact = .ok visitRestated :=
    hText visitRestated rfl
  have hDoubled : Json.readText Tree.value visitDoubled.compact = .ok visitDoubled :=
    hText visitDoubled rfl
  have hVisit : ofJson visitDocument.compact = .ok visit := by
    rw [← toOption_eq_some_iff, toOption_ofJson hDocument]
    rfl
  have hName : Doubled (.struct .control) (.object ([("type", .string "inputDate")] ++
      ("name", .string "day") :: ([] ++ ("Name", .string "day") :: []))) :=
    .here (p := ⟨"name", ["Name"], .plain⟩) (Struct.admits_of_kindOf? .date rfl) (by decide)
      (by decide) (by decide)
  have hControls : Doubled (.struct .form) (.object ([("title", .string "Visit")] ++
      ("controls", .array ([] ++ _ :: [])) :: [])) :=
    .member (p := ⟨"controls", [], .list (.struct .control)⟩) (fun h => nomatch h)
      (List.mem_of_elem_eq_true rfl : _ ∈ Struct.form.properties .date) (by decide) (.item hName)
  have hTwice : Doubled (.struct .form) visitDoubled := hControls
  obtain ⟨hAlike, hRefused⟩ := reads_properties
  exact ⟨restated_visit, hVisit,
    (hAlike _ _ _ _ hDocument hRestated restated_visit visit).1 hVisit, hTwice,
    hRefused _ _ hDoubled hTwice⟩

end Form

end FormDesign
