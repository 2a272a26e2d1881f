import SceneGuard.Codec.Entity
import SceneGuard.Config.Basic

/-!
# Configurations as documents

Every field of a configuration may be left out. How scalars are written depends on the format: not
all have a form for those that are not finite.
-/

namespace SceneGuard

open Document

variable {α : Type} [Scalar α]

namespace PropertyRange

/-- A range has to be written out in full. -/
def ofDocument? (l : Latitude) (d : Document α) : Option (PropertyRange α) := do
  let f ← d.fields? l ["sheet", "name", "min", "max"]
  return {
    key := { sheet := ← (f "sheet").required asText?, name := ← (f "name").required asText? }
    min := ← (f "min").required asScalar?
    max := ← (f "max").required asScalar? }

def toDocument (scalar : α → Document α) (r : PropertyRange α) : Document α :=
  .record [("sheet", .text r.key.sheet), ("name", .text r.key.name), ("min", scalar r.min),
    ("max", scalar r.max)]

end PropertyRange

namespace CollisionConfig

/-- What is not written is as in the standard configuration. -/
def ofDocument? (l : Latitude) (d : Document α) : Option (CollisionConfig α) := do
  let f ← d.fields? l
    ["epsilon", "use_surrogates", "use_entity_extended_bounds", "use_targets_extended_bounds"]
  let base : CollisionConfig α := .standard
  return {
    epsilon := ← (f "epsilon").orElse base.epsilon asScalar?
    useSurrogates := ← (f "use_surrogates").orElse base.useSurrogates asBool?
    extendEntity := ← (f "use_entity_extended_bounds").orElse base.extendEntity asBool?
    extendTargets := ← (f "use_targets_extended_bounds").orElse base.extendTargets asBool? }

def toDocument (scalar : α → Document α) (c : CollisionConfig α) : Document α :=
  .record [("epsilon", scalar c.epsilon), ("use_surrogates", .bool c.useSurrogates),
    ("use_entity_extended_bounds", .bool c.extendEntity),
    ("use_targets_extended_bounds", .bool c.extendTargets)]

end CollisionConfig

namespace RuleParams

/-- What is not written is as in the standard configuration. -/
def ofDocument? (l : Latitude) (d : Document α) : Option (RuleParams α) := do
  let f ← d.fields? l
    ["grid_step", "min_scale", "max_scale", "proximity_margin", "collision_failure_action",
      "reject_transient_collisions", "property_range"]
  let base : RuleParams α := .standard
  return {
    gridStep := ← (f "grid_step").orElse base.gridStep asScalar?
    minScale := ← (f "min_scale").orElse base.minScale asScalar?
    maxScale := ← (f "max_scale").orElse base.maxScale asScalar?
    proximityMargin := ← (f "proximity_margin").orElse base.proximityMargin asScalar?
    collisionFailureAction := ← (f "collision_failure_action").orElse base.collisionFailureAction
      fun d => (d.asName? l).bind FailureAction.ofName?
    rejectTransient := ← (f "reject_transient_collisions").orElse base.rejectTransient asBool?
    propertyRanges := ← (f "property_range").orElse [] (asList? (PropertyRange.ofDocument? l)) }

def toDocument (scalar : α → Document α) (p : RuleParams α) : Document α :=
  .record [("grid_step", scalar p.gridStep), ("min_scale", scalar p.minScale),
    ("max_scale", scalar p.maxScale), ("proximity_margin", scalar p.proximityMargin),
    ("collision_failure_action", .text p.collisionFailureAction.name),
    ("reject_transient_collisions", .bool p.rejectTransient),
    ("property_range", .list (p.propertyRanges.map (PropertyRange.toDocument scalar)))]

end RuleParams

namespace BindingConfig

/-- A binding names its commands and its rules; only the property may be left out. -/
def ofDocument? (l : Latitude) (d : Document α) : Option BindingConfig := do
  let f ← d.fields? l ["commands", "property", "rules"]
  return {
    commands := ← (f "commands").required (asList? asText?)
    property := ← (f "property").nullable (PropertyKey.ofDocument? l)
    rules := ← (f "rules").required (asList? asText?) }

/-- A binding without a property has no field for it. -/
def toDocument (b : BindingConfig) : Document α :=
  .record ([("commands", .list (b.commands.map .text))]
    ++ (b.property.toList.map fun key => ("property", key.toDocument))
    ++ [("rules", .list (b.rules.map .text))])

end BindingConfig

namespace Config

/-- What is not written is as in the standard configuration, section by section. -/
def ofDocument? (l : Latitude) (d : Document α) : Option (Config α) := do
  let f ← d.fields? l ["rule_checking", "collision", "rules", "binding"]
  let base : Config α := .standard
  return {
    ruleChecking := ← (f "rule_checking").orElse base.ruleChecking asBool?
    collision := ← (f "collision").orElse base.collision (CollisionConfig.ofDocument? l)
    rules := ← (f "rules").orElse base.rules (RuleParams.ofDocument? l)
    bindings := ← (f "binding").orElse [] (asList? (BindingConfig.ofDocument? l)) }

/-- The fields of a configuration in the order in which they are written. -/
def toFields (scalar : α → Document α) (c : Config α) : List (String × Document α) :=
  [("rule_checking", .bool c.ruleChecking), ("collision", c.collision.toDocument scalar),
    ("rules", c.rules.toDocument scalar),
    ("binding", .list (c.bindings.map BindingConfig.toDocument))]

end Config

end SceneGuard
