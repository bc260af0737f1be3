/-!
# Markup characters

The characters that markup reserves in texts and in attribute values between double quotes, and the
entities that stand for them.
-/

namespace FormDesign.Xml

/-- The characters that are written as entities. -/
def isReserved (c : Char) : Bool :=
  c = '&' || c = '<' || c = '>' || c = '"'

/-- The characters that stand for `c` in a text. -/
def escapeChar (c : Char) : List Char :=
  if c = '&' then ['&', 'a', 'm', 'p', ';']
  else if c = '<' then ['&', 'l', 't', ';']
  else if c = '>' then ['&', 'g', 't', ';']
  else if c = '"' then ['&', 'q', 'u', 'o', 't', ';']
  else [c]

/-- Whether `text` holds a reserved character. -/
def needsEscape (text : String) : Bool :=
  text.toList.any isReserved

/-- `text` written out character by character, each reserved one as an entity. -/
def writeOut (text : String) : String :=
  String.ofList (text.toList.flatMap escapeChar)

/-- The text that has to be made to escape `text`. A text without any reserved character is
borrowed, and nothing is made. -/
def escaped? (text : String) : Option String :=
  if needsEscape text then some (writeOut text) else none

/-- `text` with every reserved character written as an entity. -/
def escape (text : String) : String :=
  (escaped? text).getD text

theorem escapeChar_of_not_isReserved {c : Char} (h : isReserved c = false) :
    escapeChar c = [c] := by
  simp only [isReserved, Bool.or_eq_false_iff, decide_eq_false_iff_not] at h
  simp [escapeChar, h]

/-- Escaping goes character by character, whether or not there is anything to escape. -/
theorem toList_escape (text : String) : (escape text).toList = text.toList.flatMap escapeChar := by
  unfold escape escaped?
  split
  · rw [Option.getD_some, writeOut, String.toList_ofList]
  · next h =>
    simp only [needsEscape, Bool.not_eq_true, List.any_eq_false] at h
    have : ∀ cs : List Char, (∀ c ∈ cs, isReserved c = false) → cs.flatMap escapeChar = cs := by
      intro cs hcs
      induction cs with
      | nil => rfl
      | cons c cs ih =>
        rw [List.flatMap_cons, escapeChar_of_not_isReserved (hcs c (by simp)),
          ih fun c hc => hcs c (by simp [hc])]
        rfl
    exact (this _ h).symm

end FormDesign.Xml
