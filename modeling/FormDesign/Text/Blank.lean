import FormDesign.Text.Ranges

/-!
# White space

The white space of Unicode (property `White_Space`), and texts made of nothing else. An expression,
a path or a name that is blank counts as not given.

* `isSpace_of_isWhitespace`: the white space of ASCII is among it.
* `isBlank_append`: a text is blank exactly when its parts are.
-/

namespace FormDesign.Text

/-- The ranges of white space, from the tab to the ideographic space. -/
def spaceRanges : List (Nat × Nat) :=
  [(0x9, 0xD), (0x20, 0x20), (0x85, 0x85), (0xA0, 0xA0), (0x1680, 0x1680), (0x2000, 0x200A),
   (0x2028, 0x2029), (0x202F, 0x202F), (0x205F, 0x205F), (0x3000, 0x3000)]

/-- Whether `c` is white space in the sense of Unicode. -/
def isSpace (c : Char) : Bool :=
  inRanges spaceRanges c

/-- Whether `text` has no character but white space. The empty text is blank. -/
def isBlank (text : String) : Bool :=
  text.toList.all isSpace

/-- The white space of ASCII is white space. -/
theorem isSpace_of_isWhitespace {c : Char} (h : c.isWhitespace = true) : isSpace c = true := by
  simp only [Char.isWhitespace, Bool.or_eq_true, decide_eq_true_eq] at h
  rcases h with ((rfl | rfl) | rfl) | rfl <;> decide

@[simp]
theorem isBlank_empty : isBlank "" = true := rfl

/-- A text is blank exactly when its parts are. -/
theorem isBlank_append (s t : String) : isBlank (s ++ t) = (isBlank s && isBlank t) := by
  simp [isBlank, String.toList_append]

end FormDesign.Text
