import FormDesign.Defect
import FormDesign.Json.Fault

/-!
# Failures

Why a request comes to nothing: a text cannot be read, or what it says is refused.
-/

namespace FormDesign

/-- Why a request comes to nothing. -/
inductive Failure
  /-- The text of the options cannot be read. -/
  | config (fault : Json.Fault)
  /-- The text of the form cannot be read. -/
  | form (fault : Json.Fault)
  /-- The form or the options are refused. -/
  | refused (defect : Defect)

namespace Failure

/-- The words for a failure, piece by piece. -/
def words : Failure → List String
  | config fault => "failed to parse config: " :: fault.words
  | form fault => "failed to parse control tree: " :: fault.words
  | refused defect => defect.words

/-- The words for a failure. -/
def message (failure : Failure) : String :=
  String.join failure.words

end Failure

end FormDesign
