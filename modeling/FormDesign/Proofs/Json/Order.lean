import FormDesign.Json.Print
import FormDesign.Proofs.Json.Value
import FormDesign.Proofs.Text.Bytes
import Mathlib.Data.List.Sort

/-!
# Values with sorted members

A value is sorted by inserting the members of every object one by one, from the last to the first.
That is insertion sort, so the members are those there were before, and their keys do not decrease.
Sorting makes a value no deeper and no shallower.

## Main definitions

* `KeyLE`: entries in the order of their keys;
* `Value.IsOrdered`: the keys of every object increase, and so none occurs twice.

## Main results

* `Value.sortedMembers_eq_insertionSort`: sorting the members of an object is insertion sort;
* `Value.depth_sorted`: a value is as deep as before.
-/

namespace FormDesign.Json

section

variable {α : Type}

/-- The order of entries by their keys. -/
def KeyLE (a b : String × α) : Prop :=
  a.1 ≤ b.1

instance : DecidableRel (KeyLE (α := α)) := fun a b => inferInstanceAs (Decidable (a.1 ≤ b.1))

instance : Std.Total (KeyLE (α := α)) :=
  ⟨fun a b => String.le_total a.1 b.1⟩

instance : IsTrans (String × α) KeyLE :=
  ⟨fun _ _ _ => String.le_trans⟩

end

namespace Value

theorem sortedItems_eq_map (items : List Value) : sortedItems items = items.map sorted := by
  induction items with
  | nil => rfl
  | cons item items ih => rw [sortedItems, ih, List.map_cons]

theorem insertMember_eq_orderedInsert (key : String) (value : Value)
    (members : List (String × Value)) :
    insertMember key value members = members.orderedInsert KeyLE (key, value) := by
  induction members with
  | nil => rfl
  | cons member members ih =>
    rw [insertMember, List.orderedInsert, ih]
    by_cases h : member.1 < key
    · have hNot : ¬ KeyLE (key, value) member := fun hLE => String.not_le.2 h hLE
      rw [if_pos h, if_neg hNot]
    · have hLE : KeyLE (key, value) member := String.not_lt.1 h
      rw [if_neg h, if_pos hLE]

/-- The members of an object are sorted by insertion. -/
theorem sortedMembers_eq_insertionSort (members : List (String × Value)) :
    sortedMembers members =
      (members.map fun member => (member.1, member.2.sorted)).insertionSort KeyLE := by
  induction members with
  | nil => rfl
  | cons member members ih =>
    rw [sortedMembers, ih, insertMember_eq_orderedInsert, List.map_cons, List.insertionSort_cons]

/-- Sorted, an object has the same members, each of them sorted. -/
theorem sortedMembers_perm (members : List (String × Value)) :
    (sortedMembers members).Perm (members.map fun member => (member.1, member.2.sorted)) := by
  rw [sortedMembers_eq_insertionSort]
  exact List.perm_insertionSort _ _

/-- The keys of every object increase as bytes do, and so none of them occurs twice. -/
inductive IsOrdered : Value → Prop
  | null : IsOrdered .null
  | bool (b : Bool) : IsOrdered (.bool b)
  | number (n : Number) : IsOrdered (.number n)
  | string (s : String) : IsOrdered (.string s)
  | array {items : List Value} (inside : ∀ item ∈ items, IsOrdered item) : IsOrdered (.array items)
  | object {members : List (String × Value)}
      (keys : (members.map Prod.fst).Pairwise fun k l => Text.bytes k < Text.bytes l)
      (inside : ∀ member ∈ members, IsOrdered member.2) : IsOrdered (.object members)

/-- Sorting changes no depth. -/
theorem depth_sorted_le_iff (v : Value) (room : Nat) : v.sorted.depth ≤ room ↔ v.depth ≤ room := by
  induction v using inductionOn generalizing room with
  | null | bool | number | string => exact Iff.rfl
  | array items ih =>
    rw [sorted, sortedItems_eq_map]
    cases room with
    | zero => exact iff_of_false (not_depth_array_le_zero _) (not_depth_array_le_zero _)
    | succ room =>
      rw [depth_array_le_iff, depth_array_le_iff, List.forall_mem_map]
      exact forall₂_congr fun item hItem => ih item hItem room
  | object members ih =>
    rw [sorted]
    cases room with
    | zero => exact iff_of_false (not_depth_object_le_zero _) (not_depth_object_le_zero _)
    | succ room =>
      have hMembers : (∀ member ∈ sortedMembers members, member.2.depth ≤ room) ↔
          ∀ member ∈ members, member.2.sorted.depth ≤ room := by
        have hMapped : (∀ member ∈ members.map fun member => (member.1, member.2.sorted),
            member.2.depth ≤ room) ↔ ∀ member ∈ members, member.2.sorted.depth ≤ room :=
          List.forall_mem_map
        rw [← hMapped]
        simp only [(sortedMembers_perm members).mem_iff]
      rw [depth_object_le_iff, depth_object_le_iff, hMembers]
      exact forall₂_congr fun member hMember => ih member hMember room

/-- Sorted, a value is as deep as before. -/
theorem depth_sorted (v : Value) : v.sorted.depth = v.depth :=
  Nat.le_antisymm ((depth_sorted_le_iff v _).2 (Nat.le_refl _))
    ((depth_sorted_le_iff v _).1 (Nat.le_refl _))

end Value

end FormDesign.Json
