import SceneGuard.Rule.Basic

/-!
# Footprints

Entities stay above the footprint of the active zone.
-/

namespace SceneGuard

namespace Rule

variable {α μ : Type} [Scalar α]

/-- The axis along which a box is thinnest; the first of several. -/
def thinnest (half : Vec3 α) : Axis :=
  let shorter (i j : Axis) : Axis := if Scalar.precedes (half.along j) (half.along i) then j else i
  shorter (shorter .x .y) .z

/-- Whether a point lies above the footprint of a zone:
its box without regard to the thinnest axis. -/
def onFootprint (zone : Obb α) (p : Vec3 α) : Bool :=
  let offset := p - zone.center
  let thin := thinnest zone.half
  Axis.all.all fun i =>
    i = thin || decide (Scalar.abs (offset.dot (zone.axes.along i)) ≤ zone.half.along i)

/-- Reject what would put the center of an entity outside the footprint of the active zone. -/
def zoneBounds : Rule α μ :=
  judging "zone_bounds" fun ctx c v => do
    match ctx.scene.activeZone with
    | none => return v
    | some zone =>
      -- the zone itself goes where it likes
      if c.entityId = some zone then
        return v
      match ← ctx.working.worldBounds ctx.scene zone false with
      | none => return v
      | some zoneBox =>
        match ← ctx.working.worldBoundsAfter ctx.scene c false with
        | none => return v
        | some box =>
          if onFootprint zoneBox box.center then return v
          else return v.reject .clearCurrent (.leavesZone (c.entityId.getD 0) zone)

end Rule

end SceneGuard
