import FormDesign.Json.Record
import FormDesign.Proofs.Outcome
import Mathlib.Data.List.Nodup

/-!
# Records without an order

A record is read from the members of an object one after another. What is read does not depend on
their order: each field is read from what the members say of it, which must be said once at most,
and once where it is required. This holds of every record whose fields have keys of their own and
are put into the record independently of each other.

## Main definitions

* `underKeys`, `Slot.contents`: what the members of an object say under keys and of a field;
* `Slot.take`: puts what is said of a field into a record;
* `Slot.Keeps`: what holds of a record before a field is put into it holds of it afterwards;
* `Record.assemble`: a record from what is said of each of its fields, in the order of the fields;
* `Record.place`: a record from one item for each field;
* `Record.IsLawful`: a record with keys and places of its own for each field.

## Main results

* `Record.IsLawful.toOption_keyed`: an object is read as what its members say of each field;
* `Record.toOption_positional`: a list is read as one item for each field;
* `Record.keyed_invariant`, `Record.positional_invariant`: what is kept by every field holds of the
  record that is read.
-/

namespace FormDesign.Json

variable {χ ρ : Type}

/-- What stands in members under one of the keys, in their order. -/
def underKeys (keys : List String) (members : List (String × χ)) : List χ :=
  (members.filter fun member => member.1 ∈ keys).map Prod.snd

@[simp]
theorem underKeys_nil (keys : List String) : underKeys keys ([] : List (String × χ)) = [] := rfl

@[simp]
theorem underKeys_cons (keys : List String) (key : String) (c : χ) (members : List (String × χ)) :
    underKeys keys ((key, c) :: members) =
      if key ∈ keys then c :: underKeys keys members else underKeys keys members := by
  rw [underKeys, List.filter_cons]
  by_cases h : key ∈ keys
  · rw [if_pos (by simpa using h), if_pos h]
    rfl
  · rw [if_neg (by simpa using h), if_neg h]
    rfl

@[simp]
theorem underKeys_append (keys : List String) (first later : List (String × χ)) :
    underKeys keys (first ++ later) = underKeys keys first ++ underKeys keys later := by
  rw [underKeys, List.filter_append, List.map_append]
  rfl

theorem underKeys_map {χ' : Type} (f : χ → χ') (keys : List String) (members : List (String × χ)) :
    underKeys keys (members.map fun member => (member.1, f member.2)) =
      (underKeys keys members).map f := by
  induction members with
  | nil => rfl
  | cons member members ih =>
    rw [List.map_cons, underKeys_cons, underKeys_cons, ih]
    split_ifs <;> rfl

/-- A member under another key may be left out. -/
theorem underKeys_add {keys : List String} {key : String} (h : key ∉ keys) (c : χ)
    (before after : List (String × χ)) :
    underKeys keys (before ++ after) = underKeys keys (before ++ (key, c) :: after) := by
  rw [underKeys_append, underKeys_append, underKeys_cons, if_neg h]

/-- Nothing stands under keys that members do not have. -/
theorem underKeys_eq_nil {keys : List String} {members : List (String × χ)}
    (h : ∀ member ∈ members, member.1 ∉ keys) : underKeys keys members = [] := by
  have hNone : (members.filter fun member => member.1 ∈ keys) = [] :=
    List.filter_eq_nil_iff.2 fun member hMember => by simpa using h member hMember
  rw [underKeys, hNone]
  rfl

/-- The first thing that stands under a key stands behind members without that key. -/
theorem exists_split_of_underKeys {key : String} {members : List (String × χ)} {c : χ}
    {cs : List χ} (h : underKeys [key] members = c :: cs) :
    ∃ before after, members = before ++ (key, c) :: after ∧ underKeys [key] before = [] := by
  induction members with
  | nil => exact nomatch h
  | cons member members ih =>
    obtain ⟨k, d⟩ := member
    rw [underKeys_cons] at h
    split_ifs at h with hKey
    · obtain rfl := List.mem_singleton.1 hKey
      obtain ⟨rfl, -⟩ := List.cons.inj h
      exact ⟨[], members, rfl, rfl⟩
    · obtain ⟨before, after, rfl, hBefore⟩ := ih h
      refine ⟨(k, d) :: before, after, rfl, ?_⟩
      rw [underKeys_cons, if_neg hKey, hBefore]

namespace Slot

/-- The keys that mean a field. -/
def keys (slot : Slot χ ρ) : List String :=
  slot.name :: slot.aliases

theorem answers_iff {slot : Slot χ ρ} {key : String} : slot.Answers key ↔ key ∈ slot.keys :=
  List.mem_cons.symm

/-- What members say of a field, in their order. -/
def contents (slot : Slot χ ρ) (members : List (String × χ)) : List χ :=
  underKeys slot.keys members

/-- Puts what is said of a field into a record. A field of which nothing is said is left as it is,
unless it is required, and nothing may be said twice. -/
def take (slot : Slot χ ρ) : List χ → ρ → Option ρ
  | [], record => if slot.required then none else some record
  | [content], record => (slot.fill content record).toOption
  | _ :: _ :: _, _ => none

/-- Two fields may be put into a record in either order. -/
def Commutes (a b : Slot χ ρ) : Prop :=
  ∀ (c d : χ) (record : ρ),
    ((a.fill c record).toOption.bind fun record => (b.fill d record).toOption) =
      (b.fill d record).toOption.bind fun record => (a.fill c record).toOption

/-- What holds of a record still holds when the field has been put into it. -/
def Keeps (P : ρ → Prop) (slot : Slot χ ρ) : Prop :=
  ∀ c record record', P record → slot.fill c record = .ok record' → P record'

@[simp]
theorem contents_nil (slot : Slot χ ρ) : slot.contents [] = [] := rfl

theorem contents_cons_of_answers {slot : Slot χ ρ} {key : String} (h : slot.Answers key) (c : χ)
    (members : List (String × χ)) :
    slot.contents ((key, c) :: members) = c :: slot.contents members := by
  rw [contents, underKeys_cons, if_pos (answers_iff.1 h)]
  rfl

theorem contents_cons_of_not_answers {slot : Slot χ ρ} {key : String} (h : ¬ slot.Answers key)
    (c : χ) (members : List (String × χ)) :
    slot.contents ((key, c) :: members) = slot.contents members := by
  rw [contents, underKeys_cons, if_neg (mt answers_iff.2 h)]
  rfl

@[simp]
theorem contents_optional {α : Type} (name : String) (aliases : List String)
    (read : χ → Except Fault α) (put : α → ρ → ρ) (members : List (String × χ)) :
    (optional name aliases read put).contents members = underKeys (name :: aliases) members := rfl

@[simp]
theorem contents_mandatory {α : Type} (name : String) (aliases : List String)
    (read : χ → Except Fault α) (put : α → ρ → ρ) (members : List (String × χ)) :
    (mandatory name aliases read put).contents members = underKeys (name :: aliases) members := rfl

/-- A field that need not be given is left as it is when nothing is said of it. -/
@[simp]
theorem take_nil {α : Type} (name : String) (aliases : List String) (read : χ → Except Fault α)
    (put : α → ρ → ρ) (record : ρ) :
    (optional name aliases read put).take [] record = some record := rfl

/-- A field of which one thing is said is put into the record. -/
theorem take_singleton {α : Type} {name : String} {aliases : List String}
    {read : χ → Except Fault α} (put : α → ρ → ρ) {c : χ} {a : α} (h : read c = .ok a)
    (record : ρ) :
    (optional name aliases read put).take [c] record = some (put a record) := by
  change (read c >>= fun a => .ok (put a record)).toOption = some (put a record)
  rw [h]
  rfl

theorem take_mandatory {α : Type} {name : String} {aliases : List String}
    {read : χ → Except Fault α} (put : α → ρ → ρ) {c : χ} {a : α} (h : read c = .ok a)
    (record : ρ) :
    (mandatory name aliases read put).take [c] record = some (put a record) := by
  have hOptional : (optional name aliases read put).take [c] record = some (put a record) :=
    take_singleton put h record
  exact hOptional

/-- A field that is written when there is something to write is put into the record if it is. -/
theorem take_toList {α β : Type} {name : String} {aliases : List String}
    {read : χ → Except Fault α} (put : α → ρ → ρ) {write : β → χ} {f : β → α} {o : Option β}
    (h : ∀ b ∈ o, read (write b) = .ok (f b)) (record : ρ) :
    (optional name aliases read put).take (o.map write).toList record =
      some (o.elim record fun b => put (f b) record) := by
  cases o with
  | none => rfl
  | some b => exact take_singleton put (h b rfl) record

/-- A field keeps what holds of a record if whatever is read for it may be put into the record. -/
theorem keeps_optional {α : Type} {P : ρ → Prop} {name : String} {aliases : List String}
    {read : χ → Except Fault α} {put : α → ρ → ρ}
    (h : ∀ c a record, read c = .ok a → P record → P (put a record)) :
    (optional name aliases read put).Keeps P := by
  intro c record record' hRecord hFill
  obtain ⟨a, hRead, hPut⟩ := bind_eq_ok_iff.1 hFill
  obtain rfl := Except.ok.inj hPut
  exact h c a record hRead hRecord

theorem Commutes.symm {a b : Slot χ ρ} (h : a.Commutes b) : b.Commutes a :=
  fun c d record => (h d c record).symm

/-- A record that a field leaves as it is stays one when a field is put in that commutes with it. -/
theorem Commutes.keeps {a b : Slot χ ρ} (h : a.Commutes b) (c : χ) :
    b.Keeps fun record => a.fill c record = .ok record := by
  intro d record record' hLeft hFill
  have hOrder := h c d record
  rw [hLeft, hFill] at hOrder
  have hFilled : (b.fill d record).toOption = (a.fill c record').toOption := hOrder
  rw [hFill] at hFilled
  exact toOption_eq_some_iff.1 hFilled.symm

/-- What holds of a record still holds when what is said of the field has been taken. -/
theorem Keeps.take {P : ρ → Prop} {slot : Slot χ ρ} (h : slot.Keeps P) {cs : List χ}
    {record record' : ρ} (hRecord : P record) (hTake : slot.take cs record = some record') :
    P record' := by
  match cs, hTake with
  | [], hTake =>
    rw [Slot.take] at hTake
    split_ifs at hTake
    obtain rfl := Option.some.inj hTake
    exact hRecord
  | [c], hTake => exact h c record record' hRecord (toOption_eq_some_iff.1 hTake)
  | _ :: _ :: _, hTake => exact nomatch hTake

/-- Members with the same keys say related things of the fields with the same keys. -/
theorem contents_rel {χ' : Type} {R : χ → χ' → Prop} {s : Slot χ ρ} {s' : Slot χ' ρ}
    (hKeys : s.keys = s'.keys) {members : List (String × χ)} {members' : List (String × χ')}
    (h : List.Forall₂ (fun m m' => m.1 = m'.1 ∧ R m.2 m'.2) members members') :
    List.Forall₂ R (s.contents members) (s'.contents members') := by
  induction h with
  | nil => exact .nil
  | @cons m m' members members' hFirst _ ih =>
    obtain ⟨key, c⟩ := m
    obtain ⟨key', c'⟩ := m'
    obtain ⟨rfl, hContent⟩ := hFirst
    by_cases hAnswers : s.Answers key
    · have hAnswers' : s'.Answers key := by rwa [answers_iff, ← hKeys, ← answers_iff]
      rw [contents_cons_of_answers hAnswers, contents_cons_of_answers hAnswers']
      exact .cons hContent ih
    · have hAnswers' : ¬ s'.Answers key := by rwa [answers_iff, ← hKeys, ← answers_iff]
      rw [contents_cons_of_not_answers hAnswers, contents_cons_of_not_answers hAnswers']
      exact ih

/-- Fields take things alike when they read them alike. -/
theorem take_congr {χ' : Type} {a : Slot χ ρ} {b : Slot χ' ρ} (hRequired : a.required = b.required)
    {cs : List χ} {ds : List χ'}
    (h : List.Forall₂ (fun c d => ∀ record, (a.fill c record).toOption = (b.fill d record).toOption)
      cs ds) (record : ρ) : a.take cs record = b.take ds record := by
  match cs, ds, h with
  | [], [], _ => rw [take, take, hRequired]
  | [_], [_], .cons hFirst .nil => exact hFirst record
  | _ :: _ :: _, _ :: _ :: _, _ => rfl

/-- Fields commute when what they put into a record does, as reading does not depend on it. -/
theorem commutes_of_put {α β : Type} {a b : Slot χ ρ} {read₁ : χ → Except Fault α}
    {read₂ : χ → Except Fault β} {put₁ : α → ρ → ρ} {put₂ : β → ρ → ρ}
    (ha : a.fill = fun c record => do return put₁ (← read₁ c) record)
    (hb : b.fill = fun c record => do return put₂ (← read₂ c) record)
    (h : ∀ x y record, put₂ y (put₁ x record) = put₁ x (put₂ y record)) : a.Commutes b := by
  intro c d record
  have hFirst : ∀ record, (a.fill c record).toOption =
      (read₁ c).toOption.map (put₁ · record) := fun record => by
    rw [ha]
    exact toOption_map (read₁ c) (put₁ · record)
  have hSecond : ∀ record, (b.fill d record).toOption =
      (read₂ d).toOption.map (put₂ · record) := fun record => by
    rw [hb]
    exact toOption_map (read₂ d) (put₂ · record)
  simp only [hFirst, hSecond]
  cases (read₁ c).toOption with
  | none => cases (read₂ d).toOption <;> rfl
  | some x =>
    cases (read₂ d).toOption with
    | none => rfl
    | some y => exact congrArg some (h x y record)

end Slot

namespace Record

/-- A record whose fields have keys and places of their own. -/
structure IsLawful (r : Record χ ρ) : Prop where
  /-- No key means two fields. -/
  nodup : (r.slots.flatMap Slot.keys).Nodup
  /-- Fields may be put into the record in any order. -/
  commutes : r.slots.Pairwise Slot.Commutes

/-- A record from what is said of each of its fields. -/
def assemble (r : Record χ ρ) (said : Slot χ ρ → List χ) : Option ρ :=
  r.slots.foldlM (fun record slot => slot.take (said slot) record) r.blank

/-! ## Keys -/

variable {r : Record χ ρ}

/-- A key means no field when no field answers to it. -/
theorem slot?_eq_none_iff {key : String} : r.slot? key = none ↔ ∀ s ∈ r.slots, ¬ s.Answers key := by
  rw [slot?, List.find?_eq_none]
  simp only [decide_eq_true_eq]

/-- The field that a key means is the only one that answers to it, and splits the others. -/
theorem IsLawful.exists_split (h : r.IsLawful) {key : String} {slot : Slot χ ρ}
    (hSlot : r.slot? key = some slot) :
    ∃ before after, r.slots = before ++ slot :: after ∧ slot.Answers key ∧
      ∀ s ∈ before ++ after, s.name ≠ slot.name ∧ ¬ s.Answers key := by
  have hAnswers : slot.Answers key := by simpa using List.find?_some hSlot
  obtain ⟨before, after, hSplit⟩ := List.append_of_mem (List.mem_of_find?_eq_some hSlot)
  refine ⟨before, after, hSplit, hAnswers, fun s hs => ?_⟩
  -- a key that two fields share would occur twice
  have hApart : ∀ k ∈ slot.keys, k ∉ s.keys := by
    have hKeys := h.nodup
    rw [hSplit, List.flatMap_append, List.flatMap_cons, List.nodup_append',
      List.nodup_append', List.disjoint_append_right] at hKeys
    obtain ⟨-, ⟨-, -, hAfter⟩, hBefore, -⟩ := hKeys
    intro k hk hks
    rcases List.mem_append.1 hs with hMem | hMem
    · exact hBefore (List.mem_flatMap.2 ⟨s, hMem, hks⟩) hk
    · exact hAfter hk (List.mem_flatMap.2 ⟨s, hMem, hks⟩)
  constructor
  · intro hName
    exact hApart slot.name (List.mem_cons_self ..) (hName ▸ List.mem_cons_self ..)
  · exact fun hKey => hApart key (Slot.answers_iff.1 hAnswers) (Slot.answers_iff.1 hKey)

/-- A field commutes with every other field. -/
theorem IsLawful.commutes_of_split (h : r.IsLawful) {before after : List (Slot χ ρ)}
    {slot : Slot χ ρ} (hSplit : r.slots = before ++ slot :: after) :
    ∀ s ∈ before ++ after, slot.Commutes s := by
  have hPairs := h.commutes
  rw [hSplit, List.pairwise_append, List.pairwise_cons] at hPairs
  obtain ⟨-, ⟨hAfter, -⟩, hBefore⟩ := hPairs
  intro s hs
  rcases List.mem_append.1 hs with hs | hs
  · exact (hBefore s hs slot (List.mem_cons_self ..)).symm
  · exact hAfter s hs

/-! ## Members -/

section Members

variable {skip : χ → Except Fault Unit} {given : List String} {record : ρ} {key : String} {c : χ}
  {rest : List (Except Fault String × χ)}

/-- A member for none of the fields is passed over. -/
theorem fillMembers_cons_of_none (h : r.slot? key = none) :
    r.fillMembers skip given record ((.ok key, c) :: rest) =
      skip c >>= fun _ => r.fillMembers skip given record rest := by
  rw [fillMembers, ok_bind, h]

variable {slot : Slot χ ρ}

/-- A member for a field that has been read is refused. -/
theorem fillMembers_cons_of_mem (h : r.slot? key = some slot) (hGiven : slot.name ∈ given) :
    r.fillMembers skip given record ((.ok key, c) :: rest) =
      .error (.mismatch (.duplicateField slot.name)) := by
  rw [fillMembers, ok_bind, h]
  exact if_pos hGiven

/-- A member for a field that has not been read is put into the record. -/
theorem fillMembers_cons_of_not_mem (h : r.slot? key = some slot) (hNew : slot.name ∉ given) :
    r.fillMembers skip given record ((.ok key, c) :: rest) =
      slot.fill c record >>= fun record =>
        r.fillMembers skip (slot.name :: given) record rest := by
  rw [fillMembers, ok_bind, h]
  exact if_neg hNew

end Members

/-- What reading members makes of a field, given the names of the fields that have been read. -/
def step (given : List String) (slot : Slot χ ρ) : List χ → ρ → Option ρ
  | [] => some
  | [content] =>
    if slot.name ∈ given then fun _ => none else fun record => (slot.fill content record).toOption
  | _ :: _ :: _ => fun _ => none

/-- A field that is read once more is refused if it has been read. -/
theorem step_cons_of_mem {given : List String} {slot : Slot χ ρ} (h : slot.name ∈ given) (c : χ)
    (cs : List χ) : step given slot (c :: cs) = fun _ => none := by
  cases cs with
  | nil => exact if_pos h
  | cons d cs => rfl

/-- A field that is read for the first time is put into the record, and is not to be read again. -/
theorem step_cons_of_not_mem {given : List String} {slot : Slot χ ρ} (h : slot.name ∉ given) (c : χ)
    (cs : List χ) (record : ρ) :
    step given slot (c :: cs) record =
      (slot.fill c record).toOption.bind (step (slot.name :: given) slot cs) := by
  cases cs with
  | nil =>
    have hStep : step given slot [c] = fun record => (slot.fill c record).toOption := if_neg h
    rw [hStep]
    exact (Option.bind_fun_some _).symm
  | cons d cs =>
    rw [step_cons_of_mem (List.mem_cons_self ..), Option.bind_fun_none]
    rfl

/-- Names that are not those of the field make no difference. -/
theorem step_cons_name {given : List String} {slot : Slot χ ρ} {name : String}
    (h : slot.name ≠ name) (cs : List χ) : step (name :: given) slot cs = step given slot cs := by
  match cs with
  | [] => rfl
  | [c] => simp only [step, List.mem_cons, h, false_or]
  | _ :: _ :: _ => rfl

/-- A field may be put into a record before the step of another or behind it. -/
theorem step_comm {given : List String} {s slot : Slot χ ρ} (h : s.Commutes slot) (cs : List χ)
    (c : χ) (record : ρ) :
    ((step given s cs record).bind fun record => (slot.fill c record).toOption) =
      (slot.fill c record).toOption.bind (step given s cs) := by
  match cs with
  | [] => exact (Option.bind_fun_some _).symm
  | [d] =>
    rw [step]
    split
    · exact (Option.bind_fun_none _).symm
    · exact h d c record
  | _ :: _ :: _ => exact (Option.bind_fun_none _).symm

/-- A field may be put into a record before the steps of others or behind them. -/
theorem foldlM_step_comm {given : List String} {others : List (Slot χ ρ)} {slot : Slot χ ρ}
    (h : ∀ s ∈ others, s.Commutes slot) (said : Slot χ ρ → List χ) (c : χ) (record : ρ) :
    ((others.foldlM (fun record s => step given s (said s) record) record).bind
        fun record => (slot.fill c record).toOption) =
      (slot.fill c record).toOption.bind fun record =>
        others.foldlM (fun record s => step given s (said s) record) record := by
  induction others generalizing record with
  | nil => exact (Option.bind_fun_some _).symm
  | cons s others ih =>
    obtain ⟨hFirst, hOthers⟩ := List.forall_mem_cons.1 h
    simp only [List.foldlM_cons, Option.bind_eq_bind, Option.bind_assoc, ih hOthers]
    rw [← Option.bind_assoc, step_comm hFirst, Option.bind_assoc]

/-- A member for one of the fields is the first that is said of it, and says nothing of the
others. -/
theorem IsLawful.foldlM_step_cons (h : r.IsLawful) {key : String} {slot : Slot χ ρ}
    (hSlot : r.slot? key = some slot) (given : List String) (c : χ)
    (members : List (String × χ)) (record : ρ) :
    r.slots.foldlM (fun record s => step given s (s.contents ((key, c) :: members)) record) record =
      if slot.name ∈ given then none
      else (slot.fill c record).toOption.bind fun record =>
        r.slots.foldlM (fun record s => step (slot.name :: given) s (s.contents members) record)
          record := by
  -- of the other fields nothing more is said, and none of them has been given now
  obtain ⟨before, after, hSplit, hAnswers, hApart⟩ := h.exists_split hSlot
  have hSlotSays : slot.contents ((key, c) :: members) = c :: slot.contents members :=
    Slot.contents_cons_of_answers hAnswers c members
  have hOthers : ∀ s ∈ before ++ after, ∀ record,
      step given s (s.contents ((key, c) :: members)) record =
        step (slot.name :: given) s (s.contents members) record := by
    intro s hs record
    obtain ⟨hName, hKey⟩ := hApart s hs
    rw [Slot.contents_cons_of_not_answers hKey, step_cons_name hName]
  have hBefore := foldlM_congr fun s hs => hOthers s (List.mem_append_left after hs)
  have hAfter := foldlM_congr fun s hs => hOthers s (List.mem_append_right before hs)
  have hCommutes : ∀ s ∈ before, s.Commutes slot := fun s hs =>
    (h.commutes_of_split hSplit s (List.mem_append_left after hs)).symm
  simp only [hSplit, List.foldlM_append, List.foldlM_cons, Option.bind_eq_bind, hBefore, hAfter,
    hSlotSays]
  split_ifs with hGiven
  · -- the field has been read, whatever comes of the fields before it
    simp only [step_cons_of_mem hGiven, Option.bind_none, Option.bind_fun_none]
  · -- what is put into the field may come before the steps of the fields before it
    simp only [step_cons_of_not_mem hGiven, Option.bind_assoc]
    rw [← Option.bind_assoc, foldlM_step_comm hCommutes, Option.bind_assoc]

/-- The record that is read from members is put together field by field. -/
theorem IsLawful.toOption_fillMembers (h : r.IsLawful) {skip : χ → Except Fault Unit}
    {members : List (String × χ)}
    (hSkip : ∀ member ∈ members, r.slot? member.1 = none → skip member.2 = .ok ())
    (given : List String) (record : ρ) :
    ((r.fillMembers skip given record (members.map fun m => (.ok m.1, m.2))).toOption.map
        Prod.snd) =
      r.slots.foldlM (fun record s => step given s (s.contents members) record) record := by
  induction members generalizing given record with
  | nil =>
    -- nothing is said, so every field is left as it is
    change some record = _
    induction r.slots with
    | nil => rfl
    | cons s others ih => exact ih
  | cons member members ih =>
    obtain ⟨key, c⟩ := member
    obtain ⟨hFirst, hOthers⟩ := List.forall_mem_cons.1 hSkip
    rw [List.map_cons]
    cases hSlot : r.slot? key with
    | none =>
      -- no field answers to the key, so nothing more is said of any
      rw [fillMembers_cons_of_none hSlot, hFirst hSlot, ok_bind, ih hOthers]
      refine foldlM_congr (fun s hs record => ?_) record
      rw [Slot.contents_cons_of_not_answers (slot?_eq_none_iff.1 hSlot s hs)]
    | some slot =>
      rw [h.foldlM_step_cons hSlot]
      split_ifs with hGiven
      · rw [fillMembers_cons_of_mem hSlot hGiven]
        rfl
      · rw [fillMembers_cons_of_not_mem hSlot hGiven, toOption_bind, Option.map_bind]
        simp only [Function.comp_def, ih hOthers]

/-- The fields that have been read are those of which members say something. -/
theorem IsLawful.mem_given_iff (h : r.IsLawful) {skip : χ → Except Fault Unit}
    {members : List (String × χ)} {given given' : List String} {record record' : ρ}
    (hRead : r.fillMembers skip given record (members.map fun m => (.ok m.1, m.2)) =
      .ok (given', record')) {s : Slot χ ρ} (hs : s ∈ r.slots) :
    s.name ∈ given' ↔ s.name ∈ given ∨ s.contents members ≠ [] := by
  induction members generalizing given record with
  | nil =>
    obtain ⟨rfl, rfl⟩ := Prod.mk.inj (Except.ok.inj hRead)
    simp
  | cons member members ih =>
    obtain ⟨key, c⟩ := member
    rw [List.map_cons] at hRead
    cases hSlot : r.slot? key with
    | none =>
      rw [fillMembers_cons_of_none hSlot] at hRead
      obtain ⟨-, -, hRead⟩ := bind_eq_ok_iff.1 hRead
      rw [ih hRead, Slot.contents_cons_of_not_answers (slot?_eq_none_iff.1 hSlot s hs)]
    | some slot =>
      by_cases hGiven : slot.name ∈ given
      · rw [fillMembers_cons_of_mem hSlot hGiven] at hRead
        exact nomatch hRead
      rw [fillMembers_cons_of_not_mem hSlot hGiven] at hRead
      obtain ⟨record, -, hRead⟩ := bind_eq_ok_iff.1 hRead
      obtain ⟨before, after, hSplit, hAnswers, hApart⟩ := h.exists_split hSlot
      rw [ih hRead, List.mem_cons]
      rw [hSplit, List.mem_append, List.mem_cons, or_left_comm, ← List.mem_append] at hs
      -- the field of the member has been given by now, and the others as far as before
      rcases hs with rfl | hs
      · simp [Slot.contents_cons_of_answers hAnswers]
      · obtain ⟨hName, hKey⟩ := hApart s hs
        rw [Slot.contents_cons_of_not_answers hKey]
        simp [hName]

/-- Nothing is missing when members say something of each field that must be given. -/
theorem checkGiven_eq_ok_iff {given : List String} :
    r.checkGiven given = .ok () ↔ ∀ s ∈ r.slots, s.required = true → s.name ∈ given := by
  rw [checkGiven]
  split
  · rename_i s hs
    refine iff_of_false (fun h => nomatch h) fun h => ?_
    have hMissing := List.find?_some hs
    have hGiven := h s (List.mem_of_find?_eq_some hs)
    simp only [Bool.and_eq_true, Bool.not_eq_true', List.contains_eq_mem, decide_eq_false_iff_not]
      at hMissing
    exact hMissing.2 (hGiven hMissing.1)
  · rename_i hNone
    refine iff_of_true rfl fun s hs hRequired => ?_
    simpa [hRequired] using List.find?_eq_none.1 hNone s hs

/-- A record is put together like it is read when nothing is missing. -/
theorem assemble_eq_of_forall {said : Slot χ ρ → List χ}
    (h : ∀ s ∈ r.slots, s.required = true → said s ≠ []) :
    r.assemble said = r.slots.foldlM (fun record s => step [] s (said s) record) r.blank := by
  refine foldlM_congr (fun s hs record => ?_) r.blank
  match hSaid : said s with
  | [] =>
    have hOptional : s.required ≠ true := fun hRequired => h s hs hRequired hSaid
    exact if_neg hOptional
  | [c] =>
    rw [step_cons_of_not_mem List.not_mem_nil]
    exact (Option.bind_fun_some _).symm
  | _ :: _ :: _ => rfl

/-- A record cannot be put together when what is said of a field cannot be put into it. -/
theorem assemble_eq_none {said : Slot χ ρ → List χ} {s : Slot χ ρ} (hs : s ∈ r.slots)
    (hTake : ∀ record, s.take (said s) record = none) : r.assemble said = none := by
  obtain ⟨before, after, hSplit⟩ := List.append_of_mem hs
  simp only [assemble, hSplit, List.foldlM_append, List.foldlM_cons, hTake, Option.bind_eq_bind,
    Option.bind_none, Option.bind_fun_none]

/-- An object is read as what its members say of each field. -/
theorem IsLawful.toOption_keyed (h : r.IsLawful) {skip : χ → Except Fault Unit}
    {members : List (String × χ)}
    (hSkip : ∀ member ∈ members, r.slot? member.1 = none → skip member.2 = .ok ()) :
    (r.keyed skip (members.map fun m => (.ok m.1, m.2)) (.ok ())).toOption =
      r.assemble fun s => s.contents members := by
  have hFill := h.toOption_fillMembers hSkip [] r.blank
  rw [keyed, toOption_bind]
  by_cases hGiven : ∀ s ∈ r.slots, s.required = true → s.contents members ≠ []
  · rw [assemble_eq_of_forall hGiven, ← hFill]
    cases hRead : r.fillMembers skip [] r.blank (members.map fun m => (.ok m.1, m.2)) with
    | error e => rfl
    | ok read =>
      have hCheck : r.checkGiven read.1 = .ok () := by
        rw [checkGiven_eq_ok_iff]
        exact fun s hs hRequired => (h.mem_given_iff hRead hs).2 (.inr (hGiven s hs hRequired))
      change (r.checkGiven read.1 >>= fun _ => .ok read.2).toOption = some read.2
      rw [hCheck]
      rfl
  · -- a field that is required is missing, whatever is read of the others
    push Not at hGiven
    obtain ⟨s, hs, hRequired, hNothing⟩ := hGiven
    have hMissing : ∀ record, s.take (s.contents members) record = none := fun record => by
      rw [hNothing]
      exact if_pos hRequired
    rw [assemble_eq_none hs hMissing]
    cases hRead : r.fillMembers skip [] r.blank (members.map fun m => (.ok m.1, m.2)) with
    | error e => rfl
    | ok read =>
      have hCheck : r.checkGiven read.1 ≠ .ok () := by
        rw [Ne, checkGiven_eq_ok_iff]
        intro hAll
        rcases (h.mem_given_iff hRead hs).1 (hAll s hs hRequired) with hNil | hSaid
        · exact List.not_mem_nil hNil
        · exact hSaid hNothing
      change (r.checkGiven read.1 >>= fun _ => .ok read.2).toOption = none
      cases hEnd : r.checkGiven read.1 with
      | error e => rfl
      | ok u => exact absurd hEnd hCheck

/-- Records that take what is said of their fields alike are put together alike. -/
theorem assemble_congr {χ' : Type} {r' : Record χ' ρ} {said : Slot χ ρ → List χ}
    {said' : Slot χ' ρ → List χ'} (hBlank : r.blank = r'.blank)
    (h : List.Forall₂ (fun s s' => ∀ record, s.take (said s) record = s'.take (said' s') record)
      r.slots r'.slots) : r.assemble said = r'.assemble said' := by
  rw [assemble, assemble, hBlank]
  generalize r.slots = slots, r'.slots = slots', r'.blank = record at h ⊢
  induction h generalizing record with
  | nil => rfl
  | cons hFirst _ ih =>
    rw [List.foldlM_cons, List.foldlM_cons, hFirst]
    exact congrArg _ (funext ih)

/-- Of a field that leaves the blank record as it is something may be said or nothing. The other
fields commute with it, so that they lead from the blank record to records that it leaves too. -/
theorem IsLawful.assemble_eq_of_blank (h : r.IsLawful) {before after : List (Slot χ ρ)}
    {slot : Slot χ ρ} (hSplit : r.slots = before ++ slot :: after) {said said' : Slot χ ρ → List χ}
    (hOthers : ∀ s ∈ before ++ after, said s = said' s) {c : χ} (hSaid : said slot = [c])
    (hNothing : said' slot = []) (hOptional : slot.required = false)
    (hFill : slot.fill c r.blank = .ok r.blank) : r.assemble said = r.assemble said' := by
  have hCases : ∀ s ∈ r.slots, s = slot ∨ s ∈ before ++ after := by
    intro s hs
    rwa [hSplit, List.mem_append, List.mem_cons, or_left_comm, ← List.mem_append] at hs
  refine foldlM_congr_of_keeps (P := fun record => slot.fill c record = .ok record)
    (fun s hs record record' hRecord hTake => ?keeps) (fun s hs record hRecord => ?same) hFill
  case keeps =>
    rcases hCases s hs with rfl | hOther
    · have hTaken : (s.fill c record).toOption = some record' := by
        rwa [hSaid] at hTake
      rw [hRecord] at hTaken
      obtain rfl := Option.some.inj hTaken
      exact hRecord
    · exact ((h.commutes_of_split hSplit s hOther).keeps c).take hRecord hTake
  case same =>
    rcases hCases s hs with rfl | hOther
    · rw [hSaid, hNothing, Slot.take, Slot.take, hRecord, hOptional]
      rfl
    · rw [hOthers s hOther]

/-- A member may be left out that leaves the blank record as it is, where no other member says
something of its field. -/
theorem IsLawful.assemble_add (h : r.IsLawful) {key : String} {c : χ}
    {before after : List (String × χ)}
    (hLeft : ∀ s ∈ r.slots, s.Answers key → s.contents (before ++ after) = [] ∧
      s.required = false ∧ s.fill c r.blank = .ok r.blank) :
    (r.assemble fun s => s.contents (before ++ (key, c) :: after)) =
      r.assemble fun s => s.contents (before ++ after) := by
  have hOther : ∀ s : Slot χ ρ, ¬ s.Answers key →
      s.contents (before ++ (key, c) :: after) = s.contents (before ++ after) := fun s hs =>
    (underKeys_add (mt Slot.answers_iff.2 hs) c before after).symm
  cases hSlot : r.slot? key with
  | none =>
    exact foldlM_congr (fun s hs record => congrArg (s.take · record)
      (hOther s (slot?_eq_none_iff.1 hSlot s hs))) r.blank
  | some slot =>
    obtain ⟨others, others', hSplit, hAnswers, hApart⟩ := h.exists_split hSlot
    have hMem : slot ∈ r.slots := hSplit ▸ List.mem_append_right _ (List.mem_cons_self ..)
    obtain ⟨hNothing, hOptional, hFill⟩ := hLeft slot hMem hAnswers
    have hSaid : slot.contents (before ++ (key, c) :: after) = [c] := by
      rw [Slot.contents, underKeys_append] at hNothing
      obtain ⟨hBefore, hAfter⟩ := List.append_eq_nil_iff.1 hNothing
      rw [Slot.contents, underKeys_append, underKeys_cons, if_pos (Slot.answers_iff.1 hAnswers),
        hBefore, hAfter, List.nil_append]
    exact h.assemble_eq_of_blank hSplit (fun s hs => hOther s (hApart s hs).2) hSaid hNothing
      hOptional hFill

/-- What a member says may be replaced where its field reads the one like the other. -/
theorem toOption_fillMembers_replace {slot : Slot χ ρ} {name : String}
    (hSlot : r.slot? name = some slot) {c d : χ}
    (h : ∀ record, (slot.fill c record).toOption = (slot.fill d record).toOption)
    (skip : χ → Except Fault Unit) (before after : List (Except Fault String × χ))
    (given : List String) (record : ρ) :
    (r.fillMembers skip given record (before ++ (.ok name, c) :: after)).toOption =
      (r.fillMembers skip given record (before ++ (.ok name, d) :: after)).toOption := by
  induction before generalizing given record with
  | nil =>
    rw [List.nil_append, List.nil_append]
    by_cases hGiven : slot.name ∈ given
    · rw [fillMembers_cons_of_mem hSlot hGiven, fillMembers_cons_of_mem hSlot hGiven]
    · rw [fillMembers_cons_of_not_mem hSlot hGiven, fillMembers_cons_of_not_mem hSlot hGiven,
        toOption_bind, toOption_bind, h]
  | cons member before ih =>
    obtain ⟨key, e⟩ := member
    rw [List.cons_append, List.cons_append]
    cases key with
    | error fault => rfl
    | ok key =>
      cases hFirst : r.slot? key with
      | none =>
        rw [fillMembers_cons_of_none hFirst, fillMembers_cons_of_none hFirst, toOption_bind,
          toOption_bind]
        simp only [ih]
      | some first =>
        by_cases hGiven : first.name ∈ given
        · rw [fillMembers_cons_of_mem hFirst hGiven, fillMembers_cons_of_mem hFirst hGiven]
        · rw [fillMembers_cons_of_not_mem hFirst hGiven, fillMembers_cons_of_not_mem hFirst hGiven,
            toOption_bind, toOption_bind]
          simp only [ih]

/-- How often something is said of a field: by members, and in what has been given before. -/
def timesSaid (members : List (String × χ)) (given : List String) (slot : Slot χ ρ) : Nat :=
  (slot.contents members).length + if slot.name ∈ given then 1 else 0

/-- A member that says something of a field is not the first if the field has been given. -/
theorem not_mem_of_timesSaid_le {members : List (String × χ)} {given : List String}
    {slot : Slot χ ρ} {key : String} {c : χ} (hAnswers : slot.Answers key)
    (h : timesSaid ((key, c) :: members) given slot ≤ 1) : slot.name ∉ given := by
  intro hGiven
  rw [timesSaid, Slot.contents_cons_of_answers hAnswers, List.length_cons, if_pos hGiven] at h
  omega

/-- Something that is said by a member is said as often once the field has been given. -/
theorem IsLawful.timesSaid_cons (h : r.IsLawful) {members : List (String × χ)} {given : List String}
    {slot : Slot χ ρ} {key : String} {c : χ} (hSlot : r.slot? key = some slot)
    (hNew : slot.name ∉ given) {s : Slot χ ρ} (hs : s ∈ r.slots) :
    timesSaid ((key, c) :: members) given s = timesSaid members (slot.name :: given) s := by
  obtain ⟨before, after, hSplit, hAnswers, hApart⟩ := h.exists_split hSlot
  rw [hSplit, List.mem_append, List.mem_cons, or_left_comm, ← List.mem_append] at hs
  rcases hs with rfl | hs
  · rw [timesSaid, timesSaid, Slot.contents_cons_of_answers hAnswers, List.length_cons,
      if_neg hNew, if_pos (List.mem_cons_self ..)]
  · obtain ⟨hName, hKey⟩ := hApart s hs
    rw [timesSaid, timesSaid, Slot.contents_cons_of_not_answers hKey]
    simp only [List.mem_cons, hName, false_or]

/-- Members fail like the first of them that does: each of those before it that says something of a
field can be put into it, the others can be passed over, and no field is given twice. -/
theorem IsLawful.fillMembers_eq_error (h : r.IsLawful) {skip : χ → Except Fault Unit}
    {before after : List (String × χ)} {key : String} {c : χ} {slot : Slot χ ρ} {fault : Fault}
    {given : List String} (hSlot : r.slot? key = some slot)
    (hFill : ∀ record, slot.fill c record = .error fault)
    (hBefore : ∀ s ∈ r.slots, ∀ d ∈ s.contents before, ∀ record,
      ∃ record', s.fill d record = .ok record')
    (hSkip : ∀ member ∈ before, r.slot? member.1 = none → skip member.2 = .ok ())
    (hOnce : ∀ s ∈ r.slots, timesSaid (before ++ (key, c) :: after) given s ≤ 1) (record : ρ) :
    r.fillMembers skip given record ((before ++ (key, c) :: after).map fun m => (.ok m.1, m.2)) =
      .error fault := by
  induction before generalizing given record with
  | nil =>
    obtain ⟨_, _, hSplit, hAnswers, -⟩ := h.exists_split hSlot
    have hNew := not_mem_of_timesSaid_le hAnswers
      (hOnce slot (hSplit ▸ List.mem_append_right _ (List.mem_cons_self ..)))
    rw [List.nil_append, List.map_cons, fillMembers_cons_of_not_mem hSlot hNew, hFill]
    rfl
  | cons member before ih =>
    obtain ⟨k, d⟩ := member
    obtain ⟨hFirst, hOthers⟩ := List.forall_mem_cons.1 hSkip
    rw [List.cons_append] at hOnce ⊢
    rw [List.map_cons]
    cases hk : r.slot? k with
    | none =>
      have hNone := slot?_eq_none_iff.1 hk
      rw [fillMembers_cons_of_none hk, hFirst hk, ok_bind]
      refine ih (fun s hs => ?_) hOthers (fun s hs => ?_) record
      · exact Slot.contents_cons_of_not_answers (hNone s hs) d before ▸ hBefore s hs
      · have hTimes := hOnce s hs
        rwa [timesSaid, Slot.contents_cons_of_not_answers (hNone s hs)] at hTimes
    | some first =>
      obtain ⟨_, _, hSplit, hAnswers, hApart⟩ := h.exists_split hk
      have hMem : first ∈ r.slots := hSplit ▸ List.mem_append_right _ (List.mem_cons_self ..)
      have hNew := not_mem_of_timesSaid_le hAnswers (hOnce first hMem)
      have hSaid : d ∈ first.contents ((k, d) :: before) := by
        rw [Slot.contents_cons_of_answers hAnswers]
        exact List.mem_cons_self ..
      obtain ⟨record', hFilled⟩ := hBefore first hMem d hSaid record
      rw [fillMembers_cons_of_not_mem hk hNew, hFilled, ok_bind]
      refine ih (fun s hs e he => hBefore s hs e ?_) hOthers (fun s hs => ?_) record'
      · by_cases hKey : s.Answers k
        · rw [Slot.contents_cons_of_answers hKey]
          exact List.mem_cons_of_mem d he
        · rwa [Slot.contents_cons_of_not_answers hKey]
      · exact h.timesSaid_cons hk hNew hs ▸ hOnce s hs

/-! ## Items -/

/-- A record from items for its fields in their order, of which there are no more than fields. -/
def place : List (Slot χ ρ) → List χ → ρ → Option ρ
  | [], [], record => some record
  | [], _ :: _, _ => none
  | slot :: slots, [], record => (slot.take [] record).bind (place slots [])
  | slot :: slots, item :: items, record => (slot.take [item] record).bind (place slots items)

/-- Items are put into the fields in their order, and nothing may be left of them. -/
theorem toOption_fillItems (r : Record χ ρ) {finish : List χ → Except Fault Unit}
    (hNil : finish [] = .ok ()) (hCons : ∀ item items, (finish (item :: items)).toOption = none)
    (slots : List (Slot χ ρ)) (items : List χ) (index : Nat) (record : ρ) :
    (r.fillItems (.ok ()) index slots record items >>= fun filled =>
      (finish filled.2 >>= fun _ => .ok filled.1 : Except Fault ρ)).toOption =
      place slots items record := by
  induction slots generalizing items index record with
  | nil =>
    rw [fillItems, ok_bind]
    dsimp only
    cases items with
    | nil =>
      rw [hNil]
      rfl
    | cons item items =>
      rw [toOption_bind, hCons]
      rfl
  | cons slot slots ih =>
    cases items with
    | nil =>
      -- fields without items are left as they are, up to one that is required
      rw [fillItems, ok_bind, place, Slot.take]
      by_cases hRequired : slot.required = true
      · rw [if_pos hRequired, if_pos hRequired]
        rfl
      · rw [if_neg hRequired, if_neg hRequired]
        exact ih [] (index + 1) record
    | cons item items =>
      rw [fillItems, place, Slot.take, bind_assoc, toOption_bind]
      exact congrArg _ (funext fun record => ih items (index + 1) record)

/-- A list is read as one item for each field. -/
theorem toOption_positional (r : Record χ ρ) (finish : List χ → Except Fault Unit)
    (hNil : finish [] = .ok ()) (hCons : ∀ item items, (finish (item :: items)).toOption = none)
    (items : List χ) :
    (r.positional items (.ok ()) finish).toOption = place r.slots items r.blank :=
  r.toOption_fillItems hNil hCons r.slots items 0 r.blank

/-- Records that read items alike place them alike. -/
theorem place_congr {χ' : Type} {R : χ → χ' → Prop} {slots : List (Slot χ ρ)}
    {slots' : List (Slot χ' ρ)}
    (h : List.Forall₂ (fun s s' => s.required = s'.required ∧
      ∀ c d, R c d → ∀ record, (s.fill c record).toOption = (s'.fill d record).toOption)
      slots slots')
    {items : List χ} {items' : List χ'} (hItems : List.Forall₂ R items items') (record : ρ) :
    place slots items record = place slots' items' record := by
  induction h generalizing items items' record with
  | nil => cases hItems <;> rfl
  | cons hFirst _ ih =>
    cases hItems with
    | nil =>
      rw [place, place, Slot.take_congr hFirst.1 .nil]
      exact congrArg _ (funext fun record => ih .nil record)
    | cons hItem hItems =>
      rw [place, place, Slot.take_congr hFirst.1 (.cons (hFirst.2 _ _ hItem) .nil)]
      exact congrArg _ (funext fun record => ih hItems record)

/-- One item may be replaced by another that its field reads alike. -/
theorem place_replace {slots : List (Slot χ ρ)} {before after : List χ} {c d : χ}
    (h : ∀ s, slots[before.length]? = some s → ∀ record,
      (s.fill c record).toOption = (s.fill d record).toOption) (record : ρ) :
    place slots (before ++ c :: after) record = place slots (before ++ d :: after) record := by
  induction before generalizing slots record with
  | nil =>
    cases slots with
    | nil => rfl
    | cons slot slots =>
      rw [List.nil_append, List.nil_append, place, place, Slot.take, Slot.take, h slot rfl]
  | cons item before ih =>
    cases slots with
    | nil => rfl
    | cons slot slots =>
      rw [List.cons_append, List.cons_append, place, place]
      exact congrArg _ (funext fun record => ih h record)

/-- The last item may be left out when it leaves the record as it is before any item is read. -/
theorem place_append_eq {slots : List (Slot χ ρ)} (hCommutes : slots.Pairwise Slot.Commutes)
    {before : List χ} {slot : Slot χ ρ} (hSlot : slots[before.length]? = some slot)
    (hOptional : slot.required = false) {c : χ} {record : ρ}
    (hLeft : slot.fill c record = .ok record) :
    place slots (before ++ [c]) record = place slots before record := by
  induction before generalizing slots record with
  | nil =>
    cases slots with
    | nil => exact nomatch hSlot
    | cons s slots =>
      obtain rfl := Option.some.inj hSlot
      rw [List.nil_append, place, place, Slot.take, Slot.take, hLeft, hOptional]
      rfl
  | cons item before ih =>
    cases slots with
    | nil => exact nomatch hSlot
    | cons s slots =>
      obtain ⟨hFirst, hOthers⟩ := List.pairwise_cons.1 hCommutes
      have hKeeps := (hFirst slot (List.mem_of_getElem? hSlot)).symm.keeps c
      rw [List.cons_append, place, place, Slot.take]
      cases hFill : s.fill item record with
      | error fault => rfl
      | ok record' => exact ih hOthers hSlot (hKeeps item record record' hLeft hFill)

/-- An item may be replaced where its field reads the one like the other. -/
theorem toOption_fillItems_replace {slots : List (Slot χ ρ)} {slot : Slot χ ρ} {before : List χ}
    (hSlot : slots[before.length]? = some slot) {c d : χ}
    (h : ∀ record, (slot.fill c record).toOption = (slot.fill d record).toOption)
    (ending : Except Fault Unit) (after : List χ) (index : Nat) (record : ρ) :
    (r.fillItems ending index slots record (before ++ c :: after)).toOption =
      (r.fillItems ending index slots record (before ++ d :: after)).toOption := by
  induction before generalizing slots index record with
  | nil =>
    cases slots with
    | nil => exact nomatch hSlot
    | cons s slots =>
      obtain rfl := Option.some.inj hSlot
      rw [List.nil_append, List.nil_append, fillItems, fillItems, toOption_bind, toOption_bind, h]
  | cons item before ih =>
    cases slots with
    | nil => exact nomatch hSlot
    | cons s slots =>
      rw [List.cons_append, List.cons_append, fillItems, fillItems, toOption_bind, toOption_bind]
      exact congrArg _ (funext fun record => ih hSlot (index + 1) record)

/-- A record cannot be placed when one of its items cannot be put into it. -/
theorem place_eq_none {slots : List (Slot χ ρ)} {before after : List χ} {c : χ} {s : Slot χ ρ}
    (hs : slots[before.length]? = some s) (h : ∀ record, (s.fill c record).toOption = none)
    (record : ρ) : place slots (before ++ c :: after) record = none := by
  induction before generalizing slots record with
  | nil =>
    cases slots with
    | nil => exact nomatch hs
    | cons slot slots =>
      obtain rfl := Option.some.inj hs
      rw [List.nil_append, place, Slot.take, h]
      rfl
  | cons item before ih =>
    cases slots with
    | nil => exact nomatch hs
    | cons slot slots =>
      rw [List.cons_append, place, funext (ih hs)]
      exact Option.bind_fun_none _

/-! ## What every field keeps -/

section Invariant

variable {P : ρ → Prop} (hFill : ∀ s ∈ r.slots, s.Keeps P)

include hFill

theorem fillMembers_invariant {skip : χ → Except Fault Unit} {given given' : List String}
    {record record' : ρ} {members : List (Except Fault String × χ)} (hRecord : P record)
    (h : r.fillMembers skip given record members = .ok (given', record')) : P record' := by
  induction members generalizing given record with
  | nil =>
    obtain ⟨-, rfl⟩ := Prod.mk.inj (Except.ok.inj h)
    exact hRecord
  | cons member members ih =>
    obtain ⟨key, c⟩ := member
    cases key with
    | error e => exact nomatch h
    | ok key =>
      cases hSlot : r.slot? key with
      | none =>
        rw [fillMembers_cons_of_none hSlot] at h
        obtain ⟨-, -, h⟩ := bind_eq_ok_iff.1 h
        exact ih hRecord h
      | some slot =>
        by_cases hGiven : slot.name ∈ given
        · rw [fillMembers_cons_of_mem hSlot hGiven] at h
          exact nomatch h
        · rw [fillMembers_cons_of_not_mem hSlot hGiven] at h
          obtain ⟨filled, hFilled, h⟩ := bind_eq_ok_iff.1 h
          have hSlots : slot ∈ r.slots := List.mem_of_find?_eq_some hSlot
          exact ih (hFill slot hSlots c record filled hRecord hFilled) h

theorem fillItems_invariant {ending : Except Fault Unit} {index : Nat} {slots : List (Slot χ ρ)}
    (hSlots : slots ⊆ r.slots) {items : List χ} {record : ρ} {read : ρ × List χ}
    (hRecord : P record) (h : r.fillItems ending index slots record items = .ok read) :
    P read.1 := by
  induction slots generalizing index items record with
  | nil =>
    obtain rfl := Except.ok.inj h
    exact hRecord
  | cons slot slots ih =>
    obtain ⟨hSlot, hOthers⟩ := List.cons_subset.1 hSlots
    cases items with
    | nil =>
      rw [fillItems] at h
      obtain ⟨-, -, h⟩ := bind_eq_ok_iff.1 h
      split_ifs at h
      · exact nomatch h
      · exact ih hOthers hRecord h
    | cons item items =>
      rw [fillItems] at h
      obtain ⟨filled, hFilled, h⟩ := bind_eq_ok_iff.1 h
      exact ih hOthers (hFill slot hSlot item record filled hRecord hFilled) h

variable (hBlank : P r.blank)

include hBlank

/-- What holds of the blank record and is kept by every field holds of a record that is read from
members. -/
theorem keyed_invariant {skip : χ → Except Fault Unit} {members : List (Except Fault String × χ)}
    {ending : Except Fault Unit} {record : ρ} (h : r.keyed skip members ending = .ok record) :
    P record := by
  obtain ⟨read, hRead, h⟩ := bind_eq_ok_iff.1 h
  obtain ⟨-, -, h⟩ := bind_eq_ok_iff.1 h
  obtain ⟨-, -, h⟩ := bind_eq_ok_iff.1 h
  obtain rfl := Except.ok.inj h
  exact fillMembers_invariant hFill hBlank hRead

/-- What holds of the blank record and is kept by every field holds of a record that is read from
items. -/
theorem positional_invariant {items : List χ} {ending : Except Fault Unit}
    {finish : List χ → Except Fault Unit} {record : ρ}
    (h : r.positional items ending finish = .ok record) : P record := by
  obtain ⟨read, hRead, h⟩ := bind_eq_ok_iff.1 h
  obtain ⟨-, -, h⟩ := bind_eq_ok_iff.1 h
  obtain rfl := Except.ok.inj h
  exact fillItems_invariant hFill (List.Subset.refl _) hBlank hRead

end Invariant

end Record

end FormDesign.Json
