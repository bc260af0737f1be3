import FormDesign.Json.Value
import FormDesign.Text.Quoted

/-!
# Faults of a JSON text

Why a text cannot be read as what a reader wants: it is not JSON, it ends too early, or it is JSON
of the wrong shape. `Fault.message` words each cause, `Fault.category` names its kind. Lines and
columns are not kept.
-/

namespace FormDesign.Json

/-- JSON writes a double with a point or an exponent, keeps positional digits for leading digits
from the fifth place after the point to the sixteenth before it, and of two equally near decimals
takes the even one. -/
def numberStyle : Decimal.Style where
  tie := .even
  positional := fun leading => -5 ≤ leading && leading ≤ 15
  wholeFraction := ['0']

/-- What stands where something else was expected. -/
inductive Found
  | null
  | boolean (b : Bool)
  | number (n : Number)
  | string (s : String)
  | sequence
  | map

/-- The words for what was found, piece by piece. -/
def Found.words : Found → List String
  | null => ["null"]
  | boolean b => ["boolean `", toString b, "`"]
  | number (.int n) => ["integer `", toString n, "`"]
  | number (.float x) => ["floating point `", (numberStyle.numeral x).text, "`"]
  | string s => ["string ", Text.quoted s]
  | sequence => ["sequence"]
  | map => ["map"]

/-- The parts of a text that can be open when it ends. -/
inductive Part
  | value
  | list
  | object
  | string
  deriving DecidableEq

/-- The name of a part. -/
def Part.describe : Part → String
  | value => "a value"
  | list => "a list"
  | object => "an object"
  | string => "a string"

/-- The ways in which a text is not JSON. -/
inductive Malformed
  | literal
  | value
  | colon
  | listEnd
  | objectEnd
  | key
  | trailingComma
  | trailingCharacters
  | number
  | numberRange
  | escape
  | loneSurrogate
  | unfinishedSurrogate
  | controlCharacter
  | tooDeep
  deriving DecidableEq

/-- The words for a text that is not JSON. -/
def Malformed.describe : Malformed → String
  | literal => "expected ident"
  | value => "expected value"
  | colon => "expected `:`"
  | listEnd => "expected `,` or `]`"
  | objectEnd => "expected `,` or `\x7d`"
  | key => "key must be a string"
  | trailingComma => "trailing comma"
  | trailingCharacters => "trailing characters"
  | number => "invalid number"
  | numberRange => "number out of range"
  | escape => "invalid escape"
  | loneSurrogate => "lone leading surrogate in hex escape"
  | unfinishedSurrogate => "unexpected end of hex escape"
  | controlCharacter => "control character (\\u0000-\\u001F) found while parsing a string"
  | tooDeep => "recursion limit exceeded"

/-- The ways in which a JSON value is not what a reader wants. -/
inductive Mismatch
  | type (found : Found) (expected : String)
  | value (found : Found) (expected : String)
  | length (n : Nat) (expected : String)
  | missingField (name : String)
  | duplicateField (name : String)
  | unknownVariant (name : String) (known : List String)
  /-- A reader's own objection. -/
  | refused (reason : String)

/-- The names that would have been known, as a choice. -/
def describeChoice (known : List String) : String :=
  match known with
  | [a] => s!"`{a}`"
  | [a, b] => s!"`{a}` or `{b}`"
  | _ => "one of " ++ ", ".intercalate (known.map fun name => s!"`{name}`")

/-- The words for a value of the wrong shape, piece by piece. -/
def Mismatch.words : Mismatch → List String
  | type found expected => "invalid type: " :: found.words ++ [", expected ", expected]
  | value found expected => "invalid value: " :: found.words ++ [", expected ", expected]
  | length n expected => ["invalid length ", toString n, ", expected ", expected]
  | missingField name => ["missing field `", name, "`"]
  | duplicateField name => ["duplicate field `", name, "`"]
  | unknownVariant name known => ["unknown variant `", name, "`, expected ", describeChoice known]
  | refused reason => [reason]

/-- Why a text cannot be read. -/
inductive Fault
  /-- The text is not JSON. -/
  | malformed (why : Malformed)
  /-- The text ends inside one of its parts. -/
  | cut (inside : Part)
  /-- The text is JSON, but not of the wanted shape. -/
  | mismatch (why : Mismatch)

namespace Fault

/-- The words for a fault, piece by piece. -/
def words : Fault → List String
  | malformed why => [why.describe]
  | cut inside => ["EOF while parsing ", inside.describe]
  | mismatch why => why.words

/-- The words for a fault. Left out is where it stands in the text, which is said behind these words
as ` at line L column C`. -/
def message (fault : Fault) : String :=
  String.join fault.words

/-- The kind of a fault. -/
def category : Fault → String
  | malformed _ => "syntax"
  | cut _ => "eof"
  | mismatch _ => "data"

/-- A value of the wrong type. -/
def wrongType (found : Found) (expected : String) : Fault :=
  mismatch (.type found expected)

/-- A reader's own objection. -/
def refused (reason : String) : Fault :=
  mismatch (.refused reason)

end Fault

end FormDesign.Json
