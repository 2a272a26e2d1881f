import SceneGuard.Speculation.Collision
import SceneGuard.Verdict.Verdict

/-!
# Configurations

What can be set about the checks. Everything has a default, so a configuration may say nothing.
-/

namespace SceneGuard

/-- What can be set about collisions. -/
structure CollisionConfig (α : Type) where
  /-- Zero gives the strict test, in which boxes that touch do not collide. -/
  epsilon : α
  useSurrogates : Bool := true
  extendEntity : Bool := false
  extendTargets : Bool := false
  deriving DecidableEq, BEq, Repr

/-- The numbers a property may have; both limits are allowed. -/
structure PropertyRange (α : Type) where
  key : PropertyKey
  min : α
  max : α
  deriving DecidableEq, BEq, Repr

/-- The numbers and choices that rules are made with. -/
structure RuleParams (α : Type) where
  /-- Distance of grid points; zero for no grid. -/
  gridStep : α
  minScale : α
  maxScale : α
  /-- Entities closer than this are remarked on. -/
  proximityMargin : α
  collisionFailureAction : FailureAction := .clearCurrent
  /-- Reject colliding commands of a drag, too. -/
  rejectTransient : Bool := false
  propertyRanges : List (PropertyRange α) := []
  deriving DecidableEq, BEq

/-- Rules for some kinds of command, as a configuration names them. -/
structure BindingConfig where
  commands : List String
  /-- Only changes of this property. -/
  property : Option PropertyKey := none
  rules : List String
  deriving DecidableEq, Repr

/-- Everything that can be set. -/
structure Config (α : Type) where
  /-- Without it every command passes unchecked. -/
  ruleChecking : Bool := true
  collision : CollisionConfig α
  rules : RuleParams α
  /-- None for the default bindings. -/
  bindings : List BindingConfig := []
  deriving DecidableEq, BEq

section Defaults

variable {α : Type} [Scalar α]

/-- Strict tests on surrogates, with the boxes as they are. -/
def CollisionConfig.standard : CollisionConfig α := { epsilon := 0 }

/-- No grid, scales within four orders of magnitude, and remarks from close by. -/
def RuleParams.standard : RuleParams α :=
  { gridStep := 0, minScale := 0.01, maxScale := 100.0, proximityMargin := 0.05 }

/-- The configuration that says nothing: checking is on, with the default bindings. -/
def Config.standard : Config α := { collision := .standard, rules := .standard }

/-- The options of a query with no margin of its own. -/
def CollisionConfig.options (c : CollisionConfig α) : CollisionOptions α :=
  { useSurrogates := c.useSurrogates
    extendEntity := c.extendEntity
    extendTargets := c.extendTargets
    margin := 0 }

end Defaults

/-- The bindings in force when a configuration names none. -/
def BindingConfig.defaults : List BindingConfig :=
  let placing := ["die_check", "grid_snap", "zone_bounds", "collision", "proximity_warning"]
  [{ commands := ["add_entity", "add_segment", "add_vertex"], rules := placing },
    { commands := ["move_entity"], rules := placing },
    { commands := ["rotate_entity", "reparent_entity"], rules := ["die_check", "collision"] },
    { commands := ["scale_entity"], rules := ["die_check", "scale_range", "collision"] },
    { commands := ["remove_entity", "remove_segment", "remove_vertex"],
      rules := ["die_check", "cascade_remove"] },
    { commands := ["change_property"], rules := ["die_check", "property_range"] }]

/-- The bindings in force: those listed, or the defaults when none are. -/
def Config.activeBindings {α : Type} (c : Config α) : List BindingConfig :=
  if c.bindings.isEmpty then BindingConfig.defaults else c.bindings

end SceneGuard
