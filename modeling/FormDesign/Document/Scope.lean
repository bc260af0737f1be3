import FormDesign.Text.Blank

/-!
# Scopes

Where a control stands: the path of its scope, absolute and below the instance root, and the
conditions that the arms around it set.
-/

namespace FormDesign

/-- The surroundings of a control. -/
structure Scope where
  /-- The absolute path up to and including its last slash. -/
  path : String
  /-- The path below the instance root; empty at the top level, otherwise ending in a slash. -/
  below : String
  /-- The conditions of the arms around the control that are not blank, the outermost first. -/
  conditions : List String
  deriving DecidableEq

namespace Scope

/-- The top level of an instance. -/
def top (instanceRoot : String) : Scope :=
  ⟨s!"/{instanceRoot}/", "", []⟩

/-- The inside of a group. -/
def group (scope : Scope) (name : String) : Scope :=
  { scope with path := s!"{scope.path}{name}/", below := s!"{scope.below}{name}/" }

/-- The inside of an arm. Blank conditions do not count. -/
def arm (scope : Scope) (conditions : List String) : Scope :=
  { scope with conditions := scope.conditions ++ conditions.filter fun c => !Text.isBlank c }

end Scope

end FormDesign
