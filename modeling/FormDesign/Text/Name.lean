import FormDesign.Text.NameTable
import FormDesign.Text.Ranges

/-!
# Names

The names that an element without a namespace label may carry: a letter or an underscore, then
letters, digits, marks, connectors, full stops, hyphens and middle dots. Letters and marks are those
of every script; ASCII is decided without the tables.
-/

namespace FormDesign.Text

/-- Whether a name may begin with `c`. -/
def isNameStart (c : Char) : Bool :=
  if c.toNat < 0x80 then c.isAlpha || c == '_' else inRanges letterRanges c

/-- Whether `c` may stand in a name after its first character. -/
def isNameRest (c : Char) : Bool :=
  if c.toNat < 0x80 then c.isAlphanum || c == '_' || c == '-' || c == '.'
  else c == '·' || inRanges letterRanges c || inRanges followerRanges c

/-- Whether `text` can be used as the name of an element. -/
def isName (text : String) : Bool :=
  match text.toList with
  | [] => false
  | c :: rest => isNameStart c && rest.all isNameRest

@[simp]
theorem isName_empty : isName "" = false := rfl

/-- What may begin a name may also stand later in it. -/
theorem isNameRest_of_isNameStart {c : Char} (h : isNameStart c = true) : isNameRest c = true := by
  unfold isNameStart at h
  unfold isNameRest
  split at h
  · simp_all only [Char.isAlphanum]
    grind
  · simp_all

end FormDesign.Text
