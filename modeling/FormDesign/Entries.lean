/-!
# Entries

Lists of keys with values that are changed in place: an entry whose key is set again keeps its
place, and a new one comes last.

* `find?_setEntry`: looking a key up after an entry has been set.
* `map_fst_setEntry`: the keys after an entry has been set.
-/

namespace FormDesign

variable {κ α : Type} [DecidableEq κ]

/-- Replaces the value of `key`, or puts it behind the others. -/
def setEntry (key : κ) (value : α) : List (κ × α) → List (κ × α)
  | [] => [(key, value)]
  | (k, v) :: entries =>
    if k = key then (k, value) :: entries else (k, v) :: setEntry key value entries

/-- Looking a key up after an entry has been set. -/
theorem find?_setEntry (key k : κ) (value : α) (entries : List (κ × α)) :
    ((setEntry key value entries).find? fun entry => entry.1 = k) =
      if k = key then some (key, value) else entries.find? fun entry => entry.1 = k := by
  induction entries with
  | nil => by_cases h : key = k <;> simp [setEntry, h, eq_comm]
  | cons entry entries ih =>
    obtain ⟨k', v⟩ := entry
    by_cases h : k' = key
    · subst h
      by_cases hk : k' = k
      · simp [setEntry, hk]
      · simp [setEntry, hk, Ne.symm hk]
    · by_cases hk : k' = k
      · subst hk
        simp [setEntry, h]
      · simp [setEntry, h, hk, ih]

/-- The keys after an entry has been set. -/
theorem map_fst_setEntry (key : κ) (value : α) (entries : List (κ × α)) :
    (setEntry key value entries).map Prod.fst =
      if key ∈ entries.map Prod.fst then entries.map Prod.fst
      else entries.map Prod.fst ++ [key] := by
  induction entries with
  | nil => simp [setEntry]
  | cons entry entries ih =>
    obtain ⟨k, v⟩ := entry
    by_cases h : k = key
    · simp [setEntry, h]
    · have h' : key ≠ k := fun e => h e.symm
      simp only [setEntry, h, if_false, List.map_cons, ih, List.mem_cons, h', false_or]
      split <;> simp

/-- Setting an entry does not make a key occur twice. -/
theorem nodup_setEntry (key : κ) (value : α) {entries : List (κ × α)}
    (h : (entries.map Prod.fst).Nodup) : ((setEntry key value entries).map Prod.fst).Nodup := by
  rw [map_fst_setEntry]
  split
  · exact h
  · next hk =>
    simp only [List.nodup_append, h, List.nodup_cons, List.not_mem_nil, not_false_eq_true,
      List.nodup_nil, and_self, List.mem_singleton, true_and]
    rintro a ha b rfl rfl
    exact hk ha

end FormDesign
