/-!
# Segments

A text cut at every occurrence of a separator. There is always one segment more than there are
separators, so two separators side by side have an empty segment between them.

* `join_segmentsOf`: the segments with the separator between them are the text.
-/

namespace FormDesign.Text

/-- The segments of a list of characters. -/
def segmentsOf (separator : Char) : List Char → List (List Char)
  | [] => [[]]
  | c :: cs =>
    if c = separator then [] :: segmentsOf separator cs
    else match segmentsOf separator cs with
      | [] => [[c]]
      | segment :: segments => (c :: segment) :: segments

/-- The segments of a text. -/
def segments (separator : Char) (text : String) : List String :=
  (segmentsOf separator text.toList).map String.ofList

theorem segmentsOf_ne_nil (separator : Char) (cs : List Char) : segmentsOf separator cs ≠ [] := by
  cases cs with
  | nil => simp [segmentsOf]
  | cons c cs =>
    unfold segmentsOf
    split
    · simp
    · split <;> simp

/-- The segments with the separator between them are the text. -/
theorem join_segmentsOf (separator : Char) (cs : List Char) :
    [separator].intercalate (segmentsOf separator cs) = cs := by
  induction cs with
  | nil => rfl
  | cons c cs ih =>
    unfold segmentsOf
    obtain ⟨segment, segments, h⟩ := List.exists_cons_of_ne_nil (segmentsOf_ne_nil separator cs)
    rw [h] at ih ⊢
    split
    · next hc => cases segments <;> simp_all [List.intercalate]
    · cases segments <;> simp_all [List.intercalate]

end FormDesign.Text
