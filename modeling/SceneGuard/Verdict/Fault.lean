import SceneGuard.Geometry.Vector
import SceneGuard.Model.Identifier
import SceneGuard.Number.Text

/-!
# Faults

Why a command could not be checked at all. A pass turns a fault into a rejection that takes
everything back.
-/

namespace SceneGuard

/-- Why a command could not be checked. -/
inductive Fault (α : Type) where
  /-- A command or a parent link names an entity that is nowhere. -/
  | entityNotFound (id : EntityId)
  /-- The way up from this entity leads back to it. -/
  | cyclicHierarchy (id : EntityId)
  /-- The placement of this entity in the world is not finite. -/
  | degenerateTransform (id : EntityId)
  /-- A position that no grid has a point near to. -/
  | unsnappable (position : Vec3 α)
  /-- A rule gave up on the command. -/
  | ruleFailed (rule reason : String)
  deriving DecidableEq, BEq, Repr

namespace Fault

variable {α : Type} [NumberText α]

/-- A vector in words, its numbers written out in full. -/
def tripleText (v : Vec3 α) : String :=
  "[" ++ ", ".intercalate (v.toList.map NumberText.full) ++ "]"

/-- The rule that snaps positions to a grid. -/
def snappingRule : String := "grid_snap"

/-- The words for a rule that gave up. -/
def failureText (rule reason : String) : String := s!"rule '{rule}' failed: {reason}"

/-- The fault in words, as notes carry it. -/
def message : Fault α → String
  | .entityNotFound id => s!"entity not found: {id}"
  | .cyclicHierarchy id => s!"entity {id} is part of a parent cycle"
  | .degenerateTransform id => s!"entity {id} has a degenerate world transform"
  | .unsnappable position =>
    failureText snappingRule ("cannot snap position " ++ tripleText position)
  | .ruleFailed rule reason => failureText rule reason

end Fault

end SceneGuard
