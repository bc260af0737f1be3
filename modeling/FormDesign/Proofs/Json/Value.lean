import FormDesign.Json.Tree

/-!
# Values and their depth

Induction on values, with the hypothesis for every item and every member, and what the depth of a
value says of the values inside.

## Main results

* `Value.inductionOn`: what holds of a value when it holds of all that is inside holds of every
  value;
* `Value.depth_array_le_iff`, `Value.depth_object_le_iff`: a value is as deep as allowed when all
  that is inside is one bracket less deep.
-/

namespace FormDesign.Json

namespace Value

/-- Induction on values, with the hypothesis for every item and every member. -/
@[elab_as_elim]
theorem inductionOn {P : Value → Prop} (v : Value) (null : P .null) (bool : ∀ b, P (.bool b))
    (number : ∀ n, P (.number n)) (string : ∀ s, P (.string s))
    (array : ∀ items, (∀ item ∈ items, P item) → P (.array items))
    (object : ∀ members, (∀ member ∈ members, P member.2) → P (.object members)) : P v :=
  Value.rec (motive_1 := P) (motive_2 := fun items => ∀ item ∈ items, P item)
    (motive_3 := fun members => ∀ member ∈ members, P member.2)
    (motive_4 := fun member => P member.2)
    null bool number string array object
    (fun _ h => absurd h List.not_mem_nil)
    (fun _ _ hItem hItems item h => (List.mem_cons.1 h).elim (fun e => e ▸ hItem) (hItems item))
    (fun _ h => absurd h List.not_mem_nil)
    (fun _ _ hMember hMembers member h =>
      (List.mem_cons.1 h).elim (fun e => e ▸ hMember) (hMembers member))
    (fun _ _ h => h) v

/-! ## Depth -/

/-- Items nest no deeper than allowed when none of them does. -/
theorem depthItems_le_iff {items : List Value} {n : Nat} :
    depthItems items ≤ n ↔ ∀ item ∈ items, item.depth ≤ n := by
  induction items with
  | nil => simp [depthItems]
  | cons item items ih => rw [depthItems, Nat.max_le, ih, List.forall_mem_cons]

/-- Members nest no deeper than allowed when none of their values does. -/
theorem depthMembers_le_iff {members : List (String × Value)} {n : Nat} :
    depthMembers members ≤ n ↔ ∀ member ∈ members, member.2.depth ≤ n := by
  induction members with
  | nil => simp [depthMembers]
  | cons member members ih => rw [depthMembers, Nat.max_le, ih, List.forall_mem_cons]

/-- A list is as deep as allowed when its items are one bracket less deep. -/
theorem depth_array_le_iff {items : List Value} {n : Nat} :
    (array items).depth ≤ n + 1 ↔ ∀ item ∈ items, item.depth ≤ n := by
  rw [depth, Nat.add_comm, Nat.add_le_add_iff_right, depthItems_le_iff]

/-- An object is as deep as allowed when the values in it are one bracket less deep. -/
theorem depth_object_le_iff {members : List (String × Value)} {n : Nat} :
    (object members).depth ≤ n + 1 ↔ ∀ member ∈ members, member.2.depth ≤ n := by
  rw [depth, Nat.add_comm, Nat.add_le_add_iff_right, depthMembers_le_iff]

/-- An item is no deeper than its list. -/
theorem depth_le_of_mem_items {items : List Value} {item : Value} {n : Nat}
    (h : (array items).depth ≤ n) (hItem : item ∈ items) : item.depth ≤ n :=
  depth_array_le_iff.1 (Nat.le_succ_of_le h) item hItem

/-- The value of a member is no deeper than its object. -/
theorem depth_le_of_mem_members {members : List (String × Value)} {member : String × Value}
    {n : Nat} (h : (object members).depth ≤ n) (hMember : member ∈ members) : member.2.depth ≤ n :=
  depth_object_le_iff.1 (Nat.le_succ_of_le h) member hMember

/-- A list opens a bracket, if only its own. -/
theorem not_depth_array_le_zero (items : List Value) : ¬ (array items).depth ≤ 0 := by
  rw [depth]
  omega

/-- An object opens a bracket, if only its own. -/
theorem not_depth_object_le_zero (members : List (String × Value)) :
    ¬ (object members).depth ≤ 0 := by
  rw [depth]
  omega

end Value

/-! ## Trees of values -/

namespace Tree

/-- The trees of items are the trees of each of them. -/
theorem ofItems_eq_map (items : List Value) : ofItems items = items.map ofValue := by
  induction items with
  | nil => rfl
  | cons item items ih => rw [ofItems, ih, List.map_cons]

/-- The trees of members are those of their keys and of their values. -/
theorem ofMembers_eq_map (members : List (String × Value)) :
    ofMembers members = members.map fun member => (.ofString member.1, ofValue member.2) := by
  induction members with
  | nil => rfl
  | cons member members ih => rw [ofMembers, ih, List.map_cons]

@[simp]
theorem ofValue_bool (b : Bool) : ofValue (.bool b) = .bool b := by rw [ofValue]

@[simp]
theorem ofValue_string (s : String) : ofValue (.string s) = .string (.ofString s) := by rw [ofValue]

/-- The tree of a list is a list that is closed. -/
@[simp]
theorem ofValue_array (items : List Value) :
    ofValue (.array items) = .array (items.map ofValue) .closed := by
  rw [ofValue, ofItems_eq_map]

/-- The tree of an object is an object that is closed. -/
@[simp]
theorem ofValue_object (members : List (String × Value)) :
    ofValue (.object members) =
      .object (members.map fun member => (.ofString member.1, ofValue member.2)) .closed := by
  rw [ofValue, ofMembers_eq_map]

end Tree

end FormDesign.Json
