import FormDesign.Text.HiddenTable
import FormDesign.Text.Ranges

/-!
# Quoted text

A text between double quotes in which every character can be seen: the quote and the backslash are
preceded by a backslash, and a character without a shape of its own is written by name (`\t`, `\n`,
`\r`, `\0`) or as its code point in hexadecimal digits.
-/

namespace FormDesign.Text

/-- Whether `c` would not be seen by itself. -/
def isHidden (c : Char) : Bool :=
  if c.toNat < 0x7F then c.toNat < 0x20 else inRanges hiddenRanges c

/-- How `c` is written between quotes. -/
def quotedChar (c : Char) : String :=
  if c = '"' then "\\\""
  else if c = '\\' then "\\\\"
  else if c = '\t' then "\\t"
  else if c = '\n' then "\\n"
  else if c = '\r' then "\\r"
  else if c.toNat = 0 then "\\0"
  else if isHidden c then
    "\\u\x7b" ++ String.ofList (Nat.toDigits 16 c.toNat) ++ "\x7d"
  else c.toString

/-- `text` between double quotes, with every character visible. -/
def quoted (text : String) : String :=
  "\"" ++ String.join (text.toList.map quotedChar) ++ "\""

end FormDesign.Text
