import SceneGuard.Config.Error
import SceneGuard.Rule.Footprint
import SceneGuard.Rule.Limits
import SceneGuard.Rule.Overlap
import SceneGuard.Rule.Removal
import SceneGuard.Rule.Routing
import SceneGuard.Rule.Snap
import SceneGuard.Rule.Superseded

/-!
# Catalogs

Rules by the names that configurations use, and the routing that a configuration describes.
-/

namespace SceneGuard

/-- How to make a rule out of the parameters, by the name it goes under. -/
structure Catalog (α μ : Type) where
  makers : Table String (RuleParams α → Rule α μ) := .empty

namespace Catalog

variable {α μ : Type}

/-- Add a rule under a name, in place of the one there. -/
def register (c : Catalog α μ) (name : String) (make : RuleParams α → Rule α μ) : Catalog α μ :=
  ⟨c.makers.insert name make⟩

/-- The names of all rules that can be made, ascending. -/
def names (c : Catalog α μ) : List String := c.makers.keys

/-- Every rule of this library under its own name. -/
def builtin [Scalar α] [NumberText α] : Catalog α μ :=
  let rules : List (RuleParams α → Rule α μ) :=
    [fun _ => .dieCheck, fun p => .collision p.collisionFailureAction p.rejectTransient,
      fun p => .proximityWarning p.proximityMargin, fun p => .scaleRange p.minScale p.maxScale,
      fun _ => .zoneBounds, fun p => .gridSnap p.gridStep, fun p => .propertyRange p.propertyRanges,
      fun _ => .cascadeRemove]
  let names := ["die_check", "collision", "proximity_warning", "scale_range",
    "zone_bounds", "grid_snap", "property_range", "cascade_remove"]
  (names.zip rules).foldl (fun c (name, make) => c.register name make) {}

/-- The rule of a name, made with the parameters; an unknown name is refused. -/
def rule (c : Catalog α μ) (params : RuleParams α) (name : String) :
    Except ConfigError (Rule α μ) :=
  match c.makers.get? name with
  | some make => .ok (make params)
  | none => .error (.unknownRule name)

/-- A checklist of the rules under the names, added in order. -/
def checklist (c : Catalog α μ) (params : RuleParams α) (names : List String) :
    Except ConfigError (Checklist α μ) := do
  let rules ← names.mapM (c.rule params)
  return rules.foldl Checklist.add {}

/-- The kind of command of a name; an unknown name is refused. -/
def kind (name : String) : Except ConfigError CommandKind :=
  match CommandKind.ofName? name with
  | some k => .ok k
  | none => .error (.unknownCommandKind name)

/-- The binding that a configuration describes. Kinds are settled before rules, so of several
errors the first in that order is reported. -/
def binding (c : Catalog α μ) (params : RuleParams α) (b : BindingConfig) :
    Except ConfigError (Binding α μ) := do
  let kinds ← b.commands.mapM kind
  if kinds.isEmpty then
    throw (.noCommands b.rules)
  let checklist ← c.checklist params b.rules
  return .ofKinds kinds b.property checklist

/-- The bindings of a configuration, made in order. The first that cannot be made refuses all of
it. -/
def routing (c : Catalog α μ) (config : Config α) : Except ConfigError (Routing α μ) := do
  let bindings ← config.activeBindings.mapM (c.binding config.rules)
  return { bindings }

end Catalog

end SceneGuard
