import FormDesign.Proofs.Json.Whole
import FormDesign.Proofs.Xml.Codec
import Mathlib.Data.Finset.Card

/-!
# Attributes and their history

Attributes are changed by setting one name after another, also where they are read from an object,
whose members are set in the order of the text. What they come to is a function of that history:
names stand where they were first set, and have the value that they were last set to.

## Main definitions

* `Attributes.Reflects`: attributes that a history of settings comes to.

## Main results

* `Attributes.Reflects.set`, `Attributes.reflects_ofList`: one setting more, and a whole history;
* `Attributes.read_eq_ok_iff`: what is read from an object is what its members come to when they
  are set one after another;
* `attributes_reflect_history`: both for all histories and texts, and texts that are written.
-/

namespace FormDesign.Xml

open Json (Fault StringToken Tree Value maxRoom readText)

namespace Attributes

/-! ## Settings -/

/-- The names that a history sets, in order and with repetitions. -/
def namesSet (history : List (String × String)) : List String :=
  history.map Prod.fst

theorem namesSet_concat (history : List (String × String)) (key value : String) :
    namesSet (history ++ [(key, value)]) = namesSet history ++ [key] :=
  List.map_append

/-- Attributes that a history of settings comes to. -/
structure Reflects (history : List (String × String)) (attrs : Attributes) : Prop where
  mem_keys : ∀ key, key ∈ attrs.keys ↔ key ∈ namesSet history
  /-- Of two names, the one that was set first for the first time comes first. -/
  order : attrs.keys.Pairwise fun a b => (namesSet history).idxOf a < (namesSet history).idxOf b
  /-- A name has the value that was set last, which is the first that is met on the way back. -/
  get? : ∀ key, attrs.get? key =
    (history.reverse.find? fun setting => setting.1 = key).map Prod.snd

theorem reflects_empty : Reflects [] empty where
  mem_keys _ := .rfl
  order := .nil
  get? _ := rfl

variable {history : List (String × String)} {attrs : Attributes}

namespace Reflects

/-- A name that is set once more stays where it is, and a new one comes behind the others. -/
theorem order_set (h : Reflects history attrs) (key value : String) :
    (attrs.set key value).keys.Pairwise fun a b =>
      (namesSet history ++ [key]).idxOf a < (namesSet history ++ [key]).idxOf b := by
  -- where a name was first set does not change when the history grows
  have hOld : attrs.keys.Pairwise fun a b =>
      (namesSet history ++ [key]).idxOf a < (namesSet history ++ [key]).idxOf b := by
    refine h.order.imp_of_mem fun {a b} ha hb hab => ?_
    rwa [List.idxOf_append_of_mem ((h.mem_keys a).1 ha),
      List.idxOf_append_of_mem ((h.mem_keys b).1 hb)]
  rw [keys_set]
  split_ifs with hKey
  · exact hOld
  · refine List.pairwise_append.2 ⟨hOld, List.pairwise_singleton _ _, fun a ha b hb => ?_⟩
    obtain rfl := List.mem_singleton.1 hb
    have hNew : b ∉ namesSet history := fun hMem => hKey ((h.mem_keys b).2 hMem)
    have hBefore := List.idxOf_lt_length_of_mem ((h.mem_keys a).1 ha)
    rw [List.idxOf_append_of_mem ((h.mem_keys a).1 ha), List.idxOf_append_of_notMem hNew]
    omega

/-- Attributes that reflect a history reflect it also after one setting more. -/
theorem set (h : Reflects history attrs) (key value : String) :
    Reflects (history ++ [(key, value)]) (attrs.set key value) where
  mem_keys k := by
    rw [keys_set, namesSet_concat, List.mem_append, List.mem_singleton, ← h.mem_keys]
    split_ifs with hKey
    · exact ⟨.inl, fun hMem => hMem.elim id fun hEq => hEq ▸ hKey⟩
    · rw [List.mem_append, List.mem_singleton]
  order := by
    rw [namesSet_concat]
    exact h.order_set key value
  get? k := by
    rw [get?_set, h.get?, List.reverse_append, List.reverse_singleton, List.singleton_append,
      List.find?_cons]
    by_cases hKey : k = key
    · simp [hKey]
    · simp [hKey, Ne.symm hKey]

/-- Setting further names adds them to the history. -/
theorem foldl_set (h : Reflects history attrs) (more : List (String × String)) :
    Reflects (history ++ more)
      (more.foldl (fun attrs setting => attrs.set setting.1 setting.2) attrs) := by
  induction more generalizing history attrs with
  | nil => rwa [List.append_nil]
  | cons setting more ih =>
    rw [List.append_cons]
    exact ih (h.set setting.1 setting.2)

theorem nodup_keys (h : Reflects history attrs) : attrs.keys.Nodup :=
  h.order.imp fun hLess hEq => Nat.ne_of_lt hLess (congrArg (namesSet history).idxOf hEq)

theorem get?_eq_none_iff (h : Reflects history attrs) (key : String) :
    attrs.get? key = none ↔ key ∉ namesSet history := by
  rw [h.get?, Option.map_eq_none_iff, List.find?_eq_none, namesSet, List.mem_map]
  simp only [List.mem_reverse, decide_eq_true_eq, not_exists, not_and]

theorem size_eq (h : Reflects history attrs) : attrs.size = (namesSet history).toFinset.card := by
  have hNames : attrs.keys.toFinset = (namesSet history).toFinset := by
    apply List.toFinset.ext
    exact h.mem_keys
  rw [← hNames, List.toFinset_card_of_nodup h.nodup_keys, keys, List.length_map, size]

end Reflects

theorem reflects_ofList (history : List (String × String)) : Reflects history (ofList history) :=
  reflects_empty.foldl_set history

/-! ## Objects -/

/-- The value of an object whose members are texts. -/
def objectOf (members : List (String × String)) : Value :=
  .object (members.map fun m => (m.1, .string m.2))

/-- A text is read where a value would be read as that text. -/
theorem text_eq_ok_iff {room : Nat} {t : Tree} {s : String} :
    t.text = .ok s ↔ t.value room = .ok (.string s) := by
  cases t with
  | string token =>
    rw [Tree.value, map_eq_ok_iff]
    constructor
    · intro h
      exact ⟨s, h, rfl⟩
    · rintro ⟨s', h, hSame⟩
      exact Value.string.inj hSame ▸ h
  | _ =>
    constructor
    · intro h
      cases h
    · intro h
      cases Tree.reads_of_value h

/-- A member with a text is read where it would be read as a member with any value. -/
theorem textMember_eq_ok_iff {room : Nat} {found : StringToken × Tree} {m : String × String} :
    (do return (← found.1.read, ← found.2.text) : Except Fault (String × String)) = .ok m ↔
      Tree.member room found = .ok (m.1, .string m.2) := by
  have hText := @text_eq_ok_iff room
  simp only [Tree.member, bind_eq_ok_iff, hText]
  constructor
  · rintro ⟨key, hKey, s, hValue, h⟩
    obtain rfl := Except.ok.inj h
    exact ⟨key, hKey, .string s, hValue, rfl⟩
  · rintro ⟨key, hKey, v, hValue, h⟩
    obtain ⟨rfl, rfl⟩ := Prod.mk.inj (Except.ok.inj h)
    exact ⟨m.1, hKey, m.2, hValue, rfl⟩

/-- Attributes are read exactly from objects of texts, and they are what the members come to when
they are set one after another. -/
theorem read_eq_ok_iff {room : Nat} {t : Tree} :
    read room t = .ok attrs ↔
      ∃ members, t.value room = .ok (objectOf members) ∧ attrs = ofList members := by
  cases t with
  | object found ending =>
    cases room with
    | zero =>
      constructor
      · intro h
        cases h
      · rintro ⟨_, h, -⟩
        cases h
    | succ room =>
      rw [read, map_eq_ok_iff, Tree.entriesAs, Tree.value_object]
      have hMember := @textMember_eq_ok_iff room
      -- both readers go through the members in order, so that these can be compared one by one
      simp only [bind_eq_ok_iff, mapM_eq_ok_iff, hMember]
      constructor
      · rintro ⟨_, ⟨members, hMembers, u, hEnding, h⟩, rfl⟩
        obtain rfl := Except.ok.inj h
        refine ⟨members, ⟨members.map fun m => (m.1, .string m.2), ?_, u, hEnding, rfl⟩, rfl⟩
        rwa [List.forall₂_map_right_iff]
      · rintro ⟨members, ⟨values, hValues, u, hEnding, h⟩, rfl⟩
        obtain rfl := Value.object.inj (Except.ok.inj h)
        rw [List.forall₂_map_right_iff] at hValues
        exact ⟨members, ⟨members, hValues, u, hEnding, rfl⟩, rfl⟩
  | _ =>
    constructor
    · intro h
      cases room <;> cases h
    · rintro ⟨_, h, -⟩
      cases Tree.reads_of_value h

/-- So it is for whole texts. -/
theorem readText_eq_ok_iff {text : String} :
    readText read text = .ok attrs ↔
      ∃ members, readText Tree.value text = .ok (objectOf members) ∧ attrs = ofList members := by
  constructor
  · intro h
    obtain ⟨t, hRead, hText⟩ := Json.exists_tree_of_readText h
    obtain ⟨members, hValue, hAttrs⟩ := read_eq_ok_iff.1 hRead
    exact ⟨members, (hText Tree.value).trans hValue, hAttrs⟩
  · rintro ⟨members, hValue, hAttrs⟩
    obtain ⟨t, hRead, hText⟩ := Json.exists_tree_of_readText hValue
    exact (hText read).trans (read_eq_ok_iff.2 ⟨members, hRead, hAttrs⟩)

/-- Attributes are read again from the text that they are written as. -/
theorem readText_compact (attrs : Attributes) :
    readText read attrs.toValue.compact = .ok attrs := by
  have hPrint : readText read attrs.toValue.compact = read maxRoom (.ofValue attrs.toValue) :=
    Json.readText_print read .compact attrs.toValue
  rw [hPrint, read_toValue, if_pos (by decide)]

/-- After any run of settings, no name occurs twice, names stand in the order in which they were
first set, each with the value that it was last set to, and a name that was never set has none. What
is read from a text is just this: a text is read where it is an object of texts, as what its members
come to when they are set in their order. And the text that attributes are written as is read as the
same attributes in the same order. -/
theorem attributes_reflect_history :
    (∀ history : List (String × String),
      (ofList history).keys.Nodup ∧ Reflects history (ofList history) ∧
      (∀ key, (ofList history).get? key = none ↔ key ∉ namesSet history) ∧
      (ofList history).size = (namesSet history).toFinset.card) ∧
    (∀ (text : String) (attrs : Attributes), readText read text = .ok attrs ↔
      ∃ members, readText Tree.value text = .ok (objectOf members) ∧ attrs = ofList members) ∧
    ∀ history : List (String × String),
      readText read (ofList history).toValue.compact = .ok (ofList history) := by
  refine ⟨fun history => ?_, fun text attrs => readText_eq_ok_iff, fun history =>
    readText_compact (ofList history)⟩
  have h := reflects_ofList history
  exact ⟨h.nodup_keys, h, h.get?_eq_none_iff, h.size_eq⟩

example : (ofList [("a", "1"), ("b", "2"), ("a", "3")]).entries = [("a", "3"), ("b", "2")] := by
  decide

end Attributes

end FormDesign.Xml
