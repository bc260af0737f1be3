import FormDesign.Decimal.Numeral

/-!
# Defects

Why a form or the options for compiling it are refused.
-/

namespace FormDesign

/-- What is wrong with a form or with options. -/
inductive Defect
  | missingName (path : String)
  | invalidName (path name : String)
  | duplicateName (path name : String)
  | invalidBounds (path : String) (min max : Float)
  | noLanguages
  | duplicateLanguage (language : String)
  | invalidInstanceRoot (root : String)
  deriving DecidableEq

namespace Defect

/-- The words for a defect, piece by piece. -/
def words : Defect → List String
  | missingName path => ["control at '", path, "' has no name"]
  | invalidName path name => ["control name '", name, "' at '", path, "' is not a valid XML name"]
  | duplicateName path name => ["duplicate control name '", name, "' under '", path, "'"]
  | invalidBounds path min max =>
    ["bounds at '", path, "' have min ", Decimal.plainText min, " greater than max ",
      Decimal.plainText max]
  | noLanguages => ["at least one active language is required"]
  | duplicateLanguage language => ["language '", language, "' is listed more than once"]
  | invalidInstanceRoot root => ["instance root '", root, "' is not a valid XML name"]

/-- The words for a defect. -/
def message (defect : Defect) : String :=
  String.join defect.words

end Defect

end FormDesign
