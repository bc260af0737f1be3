import FormDesign.Json.Print
import FormDesign.Json.Tree.Read
import FormDesign.Json.Value.Read

/-!
# Localized texts

A text in several languages: a map from language codes to texts, kept in ascending order of the
codes.

* `get_insert`: looking a language up after an `insert`.
-/

namespace FormDesign

open Json (Value Tree Fault)

/-- Replaces the text of `key`, or puts it where the order wants it. -/
def insertEntry (key value : String) : List (String × String) → List (String × String)
  | [] => [(key, value)]
  | (k, v) :: entries =>
    if key < k then (key, value) :: (k, v) :: entries
    else if key = k then (key, value) :: entries
    else (k, v) :: insertEntry key value entries

/-- After an entry has been inserted, there is no other that was not there before. -/
theorem mem_insertEntry {key value : String} {entries : List (String × String)}
    {entry : String × String} (h : entry ∈ insertEntry key value entries) :
    entry = (key, value) ∨ entry ∈ entries := by
  induction entries with
  | nil => simpa [insertEntry] using h
  | cons e entries ih =>
    obtain ⟨k, v⟩ := e
    unfold insertEntry at h
    split at h
    · simpa using h
    · split at h <;> simp only [List.mem_cons] at h ⊢ <;> grind

/-- Entries stay in the order of their keys. -/
theorem pairwise_insertEntry (key value : String) {entries : List (String × String)}
    (h : entries.Pairwise fun a b => a.1 < b.1) :
    (insertEntry key value entries).Pairwise fun a b => a.1 < b.1 := by
  induction entries with
  | nil => simp [insertEntry]
  | cons e entries ih =>
    obtain ⟨k, v⟩ := e
    rw [List.pairwise_cons] at h
    unfold insertEntry
    split
    · next hlt =>
      refine List.pairwise_cons.2 ⟨?_, List.pairwise_cons.2 h⟩
      intro e he
      rcases List.mem_cons.1 he with rfl | he
      · exact hlt
      · exact String.lt_trans hlt (h.1 e he)
    · next hnlt =>
      split
      · next heq =>
        subst heq
        exact List.pairwise_cons.2 h
      · next hne =>
        refine List.pairwise_cons.2 ⟨?_, ih h.2⟩
        intro e he
        -- Neither below nor equal, so the new entry comes later.
        have hlt : k < key := by
          refine String.not_le.1 fun hle => hne ?_
          exact String.le_antisymm hle (String.not_lt.1 hnlt)
        rcases mem_insertEntry he with rfl | he
        · exact hlt
        · exact h.1 e he

/-- Looking a key up after an entry has been inserted. -/
theorem find?_insertEntry (key value k : String) (entries : List (String × String)) :
    ((insertEntry key value entries).find? fun entry => entry.1 = k) =
      if k = key then some (key, value) else entries.find? fun entry => entry.1 = k := by
  induction entries with
  | nil => by_cases h : key = k <;> simp [insertEntry, h, eq_comm]
  | cons e entries ih =>
    obtain ⟨k', v⟩ := e
    by_cases h : key = k
    · subst h
      simp only [insertEntry, if_true] at ih ⊢
      split
      · simp
      · split
        · simp
        · next hne => simp [Ne.symm hne, ih]
    · simp only [insertEntry, if_neg (Ne.symm h)] at ih ⊢
      split
      · simp [h]
      · split
        · next heq => subst heq; simp [h]
        · by_cases hk : k' = k <;> simp [hk, ih]

/-- A text in several languages. -/
structure LocalizedText where
  entries : List (String × String)
  /-- The language codes are in ascending order, each once. -/
  ascending : entries.Pairwise fun a b => a.1 < b.1
  deriving DecidableEq

namespace LocalizedText

/-- A text in no language. -/
def empty : LocalizedText := ⟨[], .nil⟩

instance : Inhabited LocalizedText := ⟨empty⟩

/-- Gives the text in one language. -/
def insert (t : LocalizedText) (language text : String) : LocalizedText :=
  ⟨insertEntry language text t.entries, pairwise_insertEntry language text t.ascending⟩

/-- The texts of the pairs; the last pair of a language counts. -/
def ofList (pairs : List (String × String)) : LocalizedText :=
  pairs.foldl (fun t pair => t.insert pair.1 pair.2) empty

/-- The text in one language, which is empty if none is given. -/
def get (t : LocalizedText) (language : String) : String :=
  match t.entries.find? fun entry => entry.1 = language with
  | some entry => entry.2
  | none => ""

/-- Whether no language has any text. -/
def isBlank (t : LocalizedText) : Bool :=
  t.entries.all fun entry => entry.2.isEmpty

/-- The language codes, in ascending order. -/
def languages (t : LocalizedText) : List String :=
  t.entries.map Prod.fst

/-- Looking a language up after a text has been given in one. -/
theorem get_insert (t : LocalizedText) (language text l : String) :
    (t.insert language text).get l = if l = language then text else t.get l := by
  simp only [get, insert, find?_insertEntry]
  by_cases h : l = language <;> simp [h]

/-! ## As JSON -/

/-- A localized text as an object, in ascending order of the codes. -/
def toValue (t : LocalizedText) : Value :=
  .object (t.entries.map fun (language, text) => (language, .string text))

/-- Reads a localized text from an object of texts. -/
def read (room : Nat) (t : Tree) : Except Fault LocalizedText :=
  ofList <$> t.entriesAs "a map" Tree.text room

/-- The localized text that a value is, if it is an object of texts. -/
def ofValue? : Value → Option LocalizedText
  | .object members => ofList <$> members.mapM fun
    | (language, .string text) => some (language, text)
    | _ => none
  | _ => none

end LocalizedText

end FormDesign
