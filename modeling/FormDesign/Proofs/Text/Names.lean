import FormDesign.Text.Blank
import FormDesign.Text.Name

/-!
# The characters of names

A name never holds white space, nor any character that markup, paths or captions use as a
separator. For a single character this is evaluated; for white space it holds because the tables
of letters and followers have no code point in common with that of white space.

## Main results

* `not_mem_of_isName`: a character that no name may hold does not occur in a name;
* `isSpace_of_mem_name`: no character of a name is white space;
* `not_isBlank_of_isName`: a name is not blank.
-/

namespace FormDesign.Text

/-- Whether no code point lies in ranges of both tables. -/
def disjointRanges (a b : List (Nat × Nat)) : Bool :=
  a.all fun r => b.all fun s => r.2 < s.1 || s.2 < r.1

/-- What is in one of two tables without common characters is not in the other. -/
theorem inRanges_of_disjointRanges {a b : List (Nat × Nat)} (h : disjointRanges a b = true)
    {c : Char} (hc : inRanges a c = true) : inRanges b c = false := by
  rw [Bool.eq_false_iff]
  intro hb
  obtain ⟨r, hr, hrLow, hrHigh⟩ := inRanges_iff.1 hc
  obtain ⟨s, hs, hsLow, hsHigh⟩ := inRanges_iff.1 hb
  have apart : r.2 < s.1 ∨ s.2 < r.1 := by
    simpa using List.all_eq_true.1 (List.all_eq_true.1 h r hr) s hs
  omega

/-- The characters of names begin with the hyphen. -/
theorem hyphen_le_of_isNameRest {c : Char} (h : isNameRest c = true) : 45 ≤ c.toNat := by
  refine Nat.le_of_not_lt fun hLow => ?_
  have none : ∀ n < 45, isNameRest (Char.ofNat n) = false := by decide
  have hChar := none c.toNat hLow
  rw [Char.ofNat_toNat, h] at hChar
  exact Bool.noConfusion hChar

/-- Below U+0080 white space ends with the blank. -/
theorem le_blank_of_isSpace {c : Char} (hAscii : c.toNat < 0x80) (h : isSpace c = true) :
    c.toNat ≤ 32 := by
  obtain ⟨r, hr, hLow, hHigh⟩ := inRanges_iff.1 h
  have bounded : ∀ r ∈ spaceRanges, r.2 ≤ 32 ∨ 0x80 ≤ r.1 := by decide
  rcases bounded r hr with hle | hge <;> omega

/-- No character of a name is white space. -/
theorem isSpace_of_isNameRest {c : Char} (h : isNameRest c = true) : isSpace c = false := by
  by_cases hAscii : c.toNat < 0x80
  · rw [Bool.eq_false_iff]
    intro hSpace
    have hLow := hyphen_le_of_isNameRest h
    have hHigh := le_blank_of_isSpace hAscii hSpace
    omega
  · rw [isNameRest, if_neg hAscii] at h
    simp only [Bool.or_eq_true, beq_iff_eq] at h
    rcases h with (rfl | h) | h
    · decide
    · exact inRanges_of_disjointRanges (by decide +kernel) h
    · exact inRanges_of_disjointRanges (by decide +kernel) h

/-! ## Names as a whole -/

variable {name : String}

theorem isNameRest_of_mem_name (h : isName name = true) {c : Char} (hc : c ∈ name.toList) :
    isNameRest c = true := by
  unfold isName at h
  split at h
  · exact absurd h Bool.false_ne_true
  next first rest hList =>
    rw [Bool.and_eq_true, List.all_eq_true] at h
    rw [hList, List.mem_cons] at hc
    rcases hc with rfl | hc
    · exact isNameRest_of_isNameStart h.1
    · exact h.2 c hc

/-- A character that no name may hold does not occur in a name. -/
theorem not_mem_of_isName (h : isName name = true) {c : Char} (hc : isNameRest c = false) :
    c ∉ name.toList := by
  intro hMem
  rw [isNameRest_of_mem_name h hMem] at hc
  exact Bool.noConfusion hc

/-- No character of a name is white space. -/
theorem isSpace_of_mem_name (h : isName name = true) {c : Char} (hc : c ∈ name.toList) :
    isSpace c = false :=
  isSpace_of_isNameRest (isNameRest_of_mem_name h hc)

theorem toList_ne_nil_of_isName (h : isName name = true) : name.toList ≠ [] := by
  intro hNil
  simp [isName, hNil] at h

/-- A name is not blank. -/
theorem not_isBlank_of_isName (h : isName name = true) : isBlank name = false := by
  obtain ⟨c, rest, hList⟩ := List.exists_cons_of_ne_nil (toList_ne_nil_of_isName h)
  have hc : isSpace c = false := isSpace_of_mem_name h (by simp [hList])
  simp [isBlank, hList, hc]

end FormDesign.Text
