import FormDesign.Json.Tree.Read
import FormDesign.Json.Value.Read
import FormDesign.Proofs.Json.Record
import FormDesign.Proofs.Json.Scan
import FormDesign.Proofs.Json.Value

/-!
# Texts that are read as values

A text may be read at once as what is wanted, or as a value first and then as what is wanted. Where
the text can be read as a value, nothing in it is malformed and nothing nests too deeply, so that
both ways give the same.

## Main definitions

* `Tree.Agrees`: a reader of trees gives what a reader of values gives;
* `Tree.Reads`: a tree that is read as a value, with what is read of its parts;
* `Survives`, `Value.Survives`: a double and a value that are read again when they are written.

## Main results

* `Tree.rel_value_object`, `Tree.rel_value_array`: trees that differ in a part have related values
  when the parts do;
* `Tree.skip_of_value`: what can be read as a value can be passed over;
* `Tree.agrees_listOf`, `Tree.agrees_recordOf`: lists and records are read from trees as from
  values.
-/

namespace FormDesign.Json

/-! ## Records of values -/

/-- A record is read from members as what they say of each field. -/
theorem Record.IsLawful.toOption_recordOfMembers {ρ : Type} {r : Record Value ρ} (h : r.IsLawful)
    (members : List (String × Value)) :
    (Value.recordOfMembers r members).toOption = r.assemble fun s => s.contents members :=
  h.toOption_keyed fun _ _ _ => rfl

/-- A record is read from items as one for each field. -/
theorem Value.toOption_recordOfItems {ρ : Type} (r : Record Value ρ) (items : List Value) :
    (Value.recordOfItems r items).toOption = Record.place r.slots items r.blank :=
  Record.toOption_positional r _ rfl (fun _ _ => rfl) items

/-! ## What every field keeps -/

section

variable {ρ : Type} {P : ρ → Prop}

/-- What has been read as a record from a value has what every field keeps. -/
theorem Value.recordOf_invariant {r : Record Value ρ} (hFill : ∀ s ∈ r.slots, s.Keeps P)
    (hBlank : P r.blank) {v : Value} {record : ρ} (h : v.recordOf r = .ok record) : P record := by
  cases v with
  | object members => exact Record.keyed_invariant hFill hBlank h
  | array items =>
    rw [recordOf, recordOfItems] at h
    exact Record.positional_invariant hFill hBlank h
  | _ => exact nomatch h

/-- What has been read as a record from a text has what every field keeps. -/
theorem Tree.recordOf_invariant {r : Record Tree ρ} (hFill : ∀ s ∈ r.slots, s.Keeps P)
    (hBlank : P r.blank) {t : Tree} {record : ρ} (h : t.recordOf r = .ok record) : P record := by
  cases t with
  | object members ending => exact Record.keyed_invariant hFill hBlank h
  | array items ending =>
    rw [recordOf] at h
    exact Record.positional_invariant hFill hBlank h
  | _ => exact nomatch h

end

/-! ## Strings and endings -/

/-- A string that can be read ends with its quote. -/
theorem StringToken.ending_of_read {token : StringToken} {s : String} (h : token.read = .ok s) :
    token.ending = .closed := by
  -- the ending is looked at where the pieces run out, so every piece must have been read before
  obtain ⟨cs, hPieces, -⟩ := map_eq_ok_iff.1 h
  clear h
  generalize token.pieces = pieces at hPieces
  fun_induction StringToken.read.readPieces token pieces generalizing cs with
  | case1 =>
    rw [StringToken.read.finish] at hPieces
    split at hPieces
    · assumption
    all_goals exact nomatch hPieces
  | case2 _ _ ih | case6 _ _ _ _ _ _ ih | case8 _ _ _ _ ih =>
    obtain ⟨rest, hRest, -⟩ := map_eq_ok_iff.1 hPieces
    exact ih rest hRest
  | case3 | case4 | case5 | case7 => exact nomatch hPieces

/-- A string that can be read can be passed over. -/
theorem StringToken.skip_of_read {token : StringToken} {s : String} (h : token.read = .ok s) :
    token.skip = .ok () := by
  rw [StringToken.skip, ending_of_read h]

theorem Ending.eq_closed_of_readList {ending : Ending} (h : ending.readList = .ok ()) :
    ending = .closed := by
  cases ending with
  | closed => rfl
  | _ => exact nomatch h

theorem Ending.eq_closed_of_readObject {ending : Ending} (h : ending.readObject = .ok ()) :
    ending = .closed := by
  cases ending with
  | closed => rfl
  | _ => exact nomatch h

namespace Tree

/-! ## Trees that are values -/

/-- A tree that is read as a value, with what is read of its parts. -/
inductive Reads : Nat → Tree → Value → Prop
  | null {room : Nat} : Reads room .null .null
  | bool {room : Nat} (b : Bool) : Reads room (.bool b) (.bool b)
  | number {room : Nat} {numeral : Decimal.Numeral} {n : Number} (h : readNumeral numeral = .ok n) :
    Reads room (.number numeral) (.number n)
  | string {room : Nat} {token : StringToken} {s : String} (h : token.read = .ok s) :
    Reads room (.string token) (.string s)
  | array {room : Nat} {items : List Tree} {vs : List Value}
    (h : List.Forall₂ (fun item v => value room item = .ok v) items vs) :
    Reads (room + 1) (.array items .closed) (.array vs)
  | object {room : Nat} {found : List (StringToken × Tree)} {members : List (String × Value)}
    (h : List.Forall₂ (fun f m => f.1.read = .ok m.1 ∧ value room f.2 = .ok m.2) found members) :
    Reads (room + 1) (.object found .closed) (.object members)

theorem reads_of_value {room : Nat} {t : Tree} {v : Value} (h : value room t = .ok v) :
    Reads room t v := by
  cases t with
  | null =>
    rw [value] at h
    obtain rfl := Except.ok.inj h
    exact .null
  | bool b =>
    rw [value] at h
    obtain rfl := Except.ok.inj h
    exact .bool b
  | number numeral =>
    rw [value] at h
    obtain ⟨n, hNumber, rfl⟩ := map_eq_ok_iff.1 h
    exact .number hNumber
  | string token =>
    rw [value] at h
    obtain ⟨s, hString, rfl⟩ := map_eq_ok_iff.1 h
    exact .string hString
  | array items ending =>
    cases room with
    | zero => exact nomatch h
    | succ room =>
      rw [value] at h
      obtain ⟨vs, hItems, h⟩ := bind_eq_ok_iff.1 h
      obtain ⟨⟨⟩, hEnding, h⟩ := bind_eq_ok_iff.1 h
      obtain rfl := Except.ok.inj h
      obtain rfl := Ending.eq_closed_of_readList hEnding
      exact .array (mapM_eq_ok_iff.1 hItems)
  | object found ending =>
    cases room with
    | zero => exact nomatch h
    | succ room =>
      rw [value] at h
      obtain ⟨members, hMembers, h⟩ := bind_eq_ok_iff.1 h
      obtain ⟨⟨⟩, hEnding, h⟩ := bind_eq_ok_iff.1 h
      obtain rfl := Except.ok.inj h
      obtain rfl := Ending.eq_closed_of_readObject hEnding
      refine .object ((mapM_eq_ok_iff.1 hMembers).imp fun f m hMember => ?_)
      obtain ⟨key, hKey, hMember⟩ := bind_eq_ok_iff.1 hMember
      obtain ⟨v, hValue, hMember⟩ := bind_eq_ok_iff.1 hMember
      obtain rfl := Except.ok.inj hMember
      exact ⟨hKey, hValue⟩
  | _ => cases room <;> exact nomatch h

/-! ## Parts of trees -/

/-- Reads a member of the value of an object. -/
def member (room : Nat) (m : StringToken × Tree) : Except Fault (String × Value) := do
  return (← m.1.read, ← value room m.2)

theorem value_object (room : Nat) (found : List (StringToken × Tree)) (ending : Ending) :
    value (room + 1) (.object found ending) = (do
      let members ← found.mapM (member room)
      ending.readObject
      return .object members) := by
  rw [value]
  rfl

/-- A member of which the key is known is read with what stands under the key. -/
theorem toOption_member {token : StringToken} {key : String} (h : token.read = .ok key) (room : Nat)
    (t : Tree) : (member room (token, t)).toOption =
      (value room t).toOption.map fun v => (key, v) := by
  rw [member, h]
  exact toOption_map (value room t) fun v => (key, v)

/-- Each member of a value has been read under its key. -/
theorem exists_of_mem_members {room : Nat} {found : List (StringToken × Tree)}
    {members : List (String × Value)} (h : found.mapM (member room) = .ok members)
    {m : String × Value} (hm : m ∈ members) : ∃ f ∈ found, f.1.read = .ok m.1 := by
  obtain ⟨f, hf, hRead⟩ := exists_of_mem_mapM h hm
  obtain ⟨key, hKey, hRead⟩ := bind_eq_ok_iff.1 hRead
  obtain ⟨v, -, hRead⟩ := bind_eq_ok_iff.1 hRead
  obtain rfl := Except.ok.inj hRead
  exact ⟨f, hf, hKey⟩

section

variable {room : Nat} {R : Value → Value → Prop}

/-- Objects that differ in some members have related values when those members have, whatever is
read of the others. -/
theorem rel_value_object {S : List (String × Value) → List (String × Value) → Prop}
    {before said said' after : List (StringToken × Tree)} {ending : Ending}
    (hSaid : Option.Rel S (said.mapM (member room)).toOption (said'.mapM (member room)).toOption)
    (h : ∀ ms vs ws ns, before.mapM (member room) = .ok ms → after.mapM (member room) = .ok ns →
      S vs ws → value (room + 1) (.object (before ++ (said ++ after)) ending) =
        .ok (.object (ms ++ (vs ++ ns))) →
          R (.object (ms ++ (vs ++ ns))) (.object (ms ++ (ws ++ ns)))) :
    Option.Rel R (value (room + 1) (.object (before ++ (said ++ after)) ending)).toOption
      (value (room + 1) (.object (before ++ (said' ++ after)) ending)).toOption := by
  simp only [value_object, toOption_bind] at h ⊢
  refine rel_bind (rel_mapM_replace hSaid before after) fun members _ hMembers hReplaced => ?_
  obtain ⟨ms, vs, ws, ns, hBefore, hAfter, hS, rfl, rfl⟩ := hReplaced
  refine rel_bind (rel_eq _) fun u _ hEnding _ => .some (h ms vs ws ns hBefore hAfter hS ?_)
  rw [toOption_eq_some_iff.1 hMembers, ok_bind, toOption_eq_some_iff.1 hEnding]
  rfl

/-- Lists that differ in some items have related values when those items have, whatever is read of
the others. -/
theorem rel_value_array {S : List Value → List Value → Prop} {before said said' after : List Tree}
    {ending : Ending}
    (hSaid : Option.Rel S (said.mapM (value room)).toOption (said'.mapM (value room)).toOption)
    (h : ∀ first vs ws later, before.mapM (value room) = .ok first →
      after.mapM (value room) = .ok later → S vs ws →
        value (room + 1) (.array (before ++ (said ++ after)) ending) =
          .ok (.array (first ++ (vs ++ later))) →
            R (.array (first ++ (vs ++ later))) (.array (first ++ (ws ++ later)))) :
    Option.Rel R (value (room + 1) (.array (before ++ (said ++ after)) ending)).toOption
      (value (room + 1) (.array (before ++ (said' ++ after)) ending)).toOption := by
  simp only [value, toOption_bind] at h ⊢
  refine rel_bind (rel_mapM_replace hSaid before after) fun items _ hItems hReplaced => ?_
  obtain ⟨first, vs, ws, later, hBefore, hAfter, hS, rfl, rfl⟩ := hReplaced
  refine rel_bind (rel_eq _) fun u _ hEnding _ => .some (h first vs ws later hBefore hAfter hS ?_)
  rw [toOption_eq_some_iff.1 hItems, ok_bind, toOption_eq_some_iff.1 hEnding]
  rfl

end

section

variable {room : Nat}

/-- A text that is read has been written as a string. -/
theorem exists_value_of_textAs {expected : String} {t : Tree} {s : String}
    (h : t.textAs expected = .ok s) (room : Nat) : ∃ v, value room t = .ok v := by
  cases t with
  | string token => exact ⟨.string s, by rw [value, show token.read = .ok s from h]; rfl⟩
  | _ => exact nomatch h

/-- A list has a value when its items have and it ends well. -/
theorem exists_value_array {items : List Tree} {ending : Ending}
    (hItems : ∀ item ∈ items, ∃ v, value room item = .ok v) (hEnding : ending.readList = .ok ()) :
    ∃ v, value (room + 1) (.array items ending) = .ok v := by
  obtain ⟨vs, hVs⟩ := exists_mapM_eq_ok hItems
  exact ⟨.array vs, by rw [value, hVs, ok_bind, hEnding]; rfl⟩

/-- An object has a value when its keys can be read, what it gives under them has, and it ends
well. -/
theorem exists_value_object {members : List (StringToken × Tree)} {ending : Ending}
    (hMembers : ∀ member ∈ members, (∃ key, member.1.read = .ok key) ∧
      ∃ v, value room member.2 = .ok v) (hEnding : ending.readObject = .ok ()) :
    ∃ v, value (room + 1) (.object members ending) = .ok v := by
  have hRead : ∀ found ∈ members, ∃ m, member room found = .ok m := fun found hFound => by
    obtain ⟨⟨key, hKey⟩, v, hValue⟩ := hMembers found hFound
    exact ⟨(key, v), by rw [member, hKey, hValue]; rfl⟩
  obtain ⟨ms, hMs⟩ := exists_mapM_eq_ok hRead
  exact ⟨.object ms, by rw [value_object, hMs, ok_bind, hEnding]; rfl⟩

end

/-- A list that is read is one that ends well, of which each item has been read. -/
theorem exists_of_list {α : Type} {read : Nat → Tree → Except Fault α} {room : Nat} {t : Tree}
    {as : List α} (h : Tree.list read room t = .ok as) :
    ∃ inner items, room = inner + 1 ∧ t = .array items .closed ∧
      List.Forall₂ (fun item a => read inner item = .ok a) items as := by
  cases room with
  | zero => cases t <;> exact nomatch h
  | succ room =>
    cases t with
    | array items ending =>
      obtain ⟨read, hItems, h⟩ := bind_eq_ok_iff.1 h
      obtain ⟨⟨⟩, hEnding, h⟩ := bind_eq_ok_iff.1 h
      obtain rfl := Except.ok.inj h
      obtain rfl := Ending.eq_closed_of_readList hEnding
      exact ⟨room, items, rfl, rfl, mapM_eq_ok_iff.1 hItems⟩
    | _ => exact nomatch h

/-! ## Parts of records -/

section

variable {ρ : Type} {r : Record Tree ρ} {slot : Slot Tree ρ} {t t' : Tree}
  (h : ∀ record, (slot.fill t record).toOption = (slot.fill t' record).toOption)

include h

/-- What a member gives for a field may be replaced where the field reads the one like the other. -/
theorem toOption_recordOf_member {token : StringToken} {key : String}
    (hToken : token.read = .ok key) (hSlot : r.slot? key = some slot)
    (before after : List (StringToken × Tree)) (ending : Ending) :
    (recordOf r (.object (before ++ (token, t) :: after) ending)).toOption =
      (recordOf r (.object (before ++ (token, t') :: after) ending)).toOption := by
  rw [recordOf, recordOf, Record.keyed, Record.keyed, toOption_bind, toOption_bind,
    List.map_append, List.map_append, List.map_cons, List.map_cons]
  dsimp only
  rw [hToken, Record.toOption_fillMembers_replace hSlot h]

/-- An item may be replaced where its field reads the one like the other. -/
theorem toOption_recordOf_item {before : List Tree} (hSlot : r.slots[before.length]? = some slot)
    (after : List Tree) (ending : Ending) :
    (recordOf r (.array (before ++ t :: after) ending)).toOption =
      (recordOf r (.array (before ++ t' :: after) ending)).toOption := by
  rw [recordOf, recordOf, Record.positional, Record.positional, toOption_bind, toOption_bind,
    Record.toOption_fillItems_replace hSlot h]

end

/-! ## Passing over -/

theorem skipItems_of_forall {items : List Tree} (h : ∀ item ∈ items, item.skip = .ok ()) :
    skipItems items = .ok () := by
  induction items with
  | nil => rfl
  | cons item items ih =>
    obtain ⟨hFirst, hOthers⟩ := List.forall_mem_cons.1 h
    rw [skipItems, hFirst, ok_bind, ih hOthers]

theorem skipMembers_of_forall {members : List (StringToken × Tree)}
    (h : ∀ member ∈ members, member.1.skip = .ok () ∧ member.2.skip = .ok ()) :
    skipMembers members = .ok () := by
  induction members with
  | nil => rfl
  | cons member members ih =>
    obtain ⟨⟨hKey, hValue⟩, hOthers⟩ := List.forall_mem_cons.1 h
    rw [skipMembers, hKey, ok_bind, hValue, ok_bind, ih hOthers]

/-- What can be read as a value can be passed over. -/
theorem skip_of_value {room : Nat} {t : Tree} {v : Value} (h : value room t = .ok v) :
    t.skip = .ok () := by
  -- what is inside has been read with less room
  induction room using Nat.strongRecOn generalizing t v with
  | ind room ih =>
    cases reads_of_value h with
    | null | bool b | number hNumber => rfl
    | string hString => exact StringToken.skip_of_read hString
    | @array room items vs hItems =>
      have hSkip : ∀ item ∈ items, item.skip = .ok () := fun item hItem => by
        obtain ⟨v, -, hRead⟩ := exists_of_forall₂ hItems hItem
        exact ih room (Nat.lt_succ_self room) hRead
      rw [skip, skipItems_of_forall hSkip]
      rfl
    | @object room found members hMembers =>
      have hSkip : ∀ f ∈ found, f.1.skip = .ok () ∧ f.2.skip = .ok () := fun f hFound => by
        obtain ⟨m, -, hKey, hRead⟩ := exists_of_forall₂ hMembers hFound
        exact ⟨StringToken.skip_of_read hKey, ih room (Nat.lt_succ_self room) hRead⟩
      rw [skip, skipMembers_of_forall hSkip]
      rfl

/-! ## Readers that agree -/

section

variable {α ρ : Type} {room : Nat}

/-- A reader of trees gives what a reader of values gives, where the tree can be read as a value. -/
def Agrees (room : Nat) (read : Tree → Except Fault α) (read' : Value → Except Fault α) : Prop :=
  ∀ t v, value room t = .ok v → (read t).toOption = (read' v).toOption

/-- A reader that reads only what can be read as a value reads whatever the value says. -/
theorem Agrees.toOption_eq {read : Tree → Except Fault α} {read' : Value → Except Fault α}
    (h : Agrees room read read') (hValue : ∀ t a, read t = .ok a → ∃ v, value room t = .ok v)
    (t : Tree) :
    (read t).toOption = (value room t).toOption.bind fun v => (read' v).toOption := by
  cases hTree : value room t with
  | ok v => exact h t v hTree
  | error fault =>
    cases hRead : read t with
    | error fault => rfl
    | ok a =>
      obtain ⟨v, hv⟩ := hValue t a hRead
      rw [hTree] at hv
      exact nomatch hv

theorem agrees_textAs (expected : String) : Agrees room (Tree.textAs expected) Value.text := by
  intro t v h
  cases reads_of_value h with
  | string hString => exact congrArg Except.toOption hString
  | _ => rfl

/-- Lists are read from trees as from values when their items are. -/
theorem agrees_list {read : Nat → Tree → Except Fault α} {read' : Value → Except Fault α}
    (h : ∀ inner, room = inner + 1 → Agrees inner (read inner) read') :
    Agrees room (Tree.list read room) (Value.listOf read') := by
  intro t v hValue
  cases reads_of_value hValue with
  | @array room items vs hItems =>
    have hRead := toOption_mapM_congr (hItems.imp fun t v => h room rfl t v)
    rw [Tree.list, Tree.listOf, Value.listOf, ← hRead, toOption_bind]
    exact Option.bind_fun_some _
  | @object room => rfl
  | _ => cases room <;> rfl

/-- Fields that are read from trees as from values. -/
structure SlotAgrees (room : Nat) (s : Slot Tree ρ) (s' : Slot Value ρ) : Prop where
  keys : s.keys = s'.keys
  required : s.required = s'.required
  fill : ∀ record, Agrees room (s.fill · record) (s'.fill · record)

/-- Members whose keys can be read are those of the keys that are read. -/
theorem exists_named {found : List (StringToken × Tree)} {members : List (String × Value)}
    (h : List.Forall₂ (fun f m => f.1.read = .ok m.1 ∧ value room f.2 = .ok m.2) found members) :
    ∃ named : List (String × Tree),
      (found.map fun (key, t) => (key.read, t)) = named.map (fun m => (.ok m.1, m.2)) ∧
        List.Forall₂ (fun n m => n.1 = m.1 ∧ value room n.2 = .ok m.2) named members := by
  induction h with
  | nil => exact ⟨[], rfl, .nil⟩
  | @cons f m found members hFirst _ ih =>
    obtain ⟨hKey, hValue⟩ := hFirst
    obtain ⟨named, hNamed, hMembers⟩ := ih
    refine ⟨(m.1, f.2) :: named, ?_, .cons ⟨rfl, hValue⟩ hMembers⟩
    rw [List.map_cons, List.map_cons, hNamed, ← hKey]

/-- Records are read from trees as from values when their fields are. -/
theorem agrees_recordOf {r : Record Tree ρ} {r' : Record Value ρ} (hr : r.IsLawful)
    (hr' : r'.IsLawful) (hBlank : r.blank = r'.blank)
    (h : List.Forall₂ (SlotAgrees room) r.slots r'.slots) :
    Agrees (room + 1) (Tree.recordOf r) (Value.recordOf r') := by
  intro t v hValue
  cases reads_of_value hValue with
  | @array _ items vs hItems =>
    rw [Tree.recordOf, Value.recordOf, Value.toOption_recordOfItems]
    refine (Record.toOption_positional r _ rfl (fun _ _ => rfl) items).trans ?_
    rw [hBlank]
    exact Record.place_congr (h.imp fun s s' hs => ⟨hs.required, fun c d hcd record =>
      hs.fill record c d hcd⟩) hItems r'.blank
  | @object _ found members hMembers =>
    -- what is passed over has been read as a value, so that passing over it cannot fail
    obtain ⟨named, hNamed, hMembers⟩ := exists_named hMembers
    have hSkip : ∀ member ∈ named, member.2.skip = .ok () := fun member hMember => by
      obtain ⟨m, -, -, hRead⟩ := exists_of_forall₂ hMembers hMember
      exact skip_of_value hRead
    rw [Tree.recordOf, Value.recordOf, hr'.toOption_recordOfMembers, hNamed]
    refine (hr.toOption_keyed fun member hMember _ => hSkip member hMember).trans ?_
    exact Record.assemble_congr hBlank (h.imp fun s s' hs record => Slot.take_congr hs.required
      ((Slot.contents_rel hs.keys hMembers).imp fun c d hcd record => hs.fill record c d hcd)
      record)
  | _ => rfl

end

end Tree

/-! ## Values that survive -/

/-- A double that is read again from the numeral that it is written as. -/
def Survives (x : Float) : Prop :=
  x.isFinite = true ∧ readNumeral (Tree.numeralOf (.float x)) = .ok (.float x)

namespace Value

/-- A value that is read again from its own tree, where it does not nest too deeply. -/
def Survives (v : Value) : Prop :=
  ∀ room, v.depth ≤ room → Tree.value room (.ofValue v) = .ok v

theorem survives_bool (b : Bool) : (Value.bool b).Survives := by
  intro room _
  rw [Tree.ofValue_bool, Tree.value]

theorem survives_string (s : String) : (Value.string s).Survives := by
  intro room _
  rw [Tree.ofValue_string, Tree.value, read_ofString]
  rfl

theorem survives_float {x : Float} (h : Json.Survives x) : (Value.number (.float x)).Survives := by
  intro room _
  rw [Tree.ofValue, if_pos h.1, Tree.value, h.2]
  rfl

theorem survives_array {items : List Value} (h : ∀ item ∈ items, item.Survives) :
    (Value.array items).Survives := by
  intro room hDepth
  cases room with
  | zero => exact absurd hDepth (not_depth_array_le_zero items)
  | succ room =>
    rw [depth_array_le_iff] at hDepth
    have hItems : (items.map Tree.ofValue).mapM (Tree.value room) = .ok (items.map id) := by
      rw [List.mapM_map]
      exact mapM_eq_ok_map fun item hItem => h item hItem room (hDepth item hItem)
    rw [Tree.ofValue_array, Tree.value, hItems, List.map_id]
    rfl

theorem survives_object {members : List (String × Value)}
    (h : ∀ member ∈ members, member.2.Survives) : (Value.object members).Survives := by
  intro room hDepth
  cases room with
  | zero => exact absurd hDepth (not_depth_object_le_zero members)
  | succ room =>
    rw [depth_object_le_iff] at hDepth
    rw [Tree.ofValue_object, Tree.value, List.mapM_map, mapM_eq_ok_map (g := id)]
    · rw [List.map_id]
      rfl
    · intro member hMember
      simp only [Function.comp_apply, read_ofString, ok_bind,
        h member hMember room (hDepth member hMember)]
      rfl

end Value

end FormDesign.Json
