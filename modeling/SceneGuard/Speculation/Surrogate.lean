import SceneGuard.Geometry.Obb
import SceneGuard.Model.Command

/-!
# Surrogates

A surrogate stands in for one entity while a pass runs: it is what the entity would be if the
commands approved so far had been applied. The live scene is not touched.

The boxes of a surrogate are stored with it. They depend on its size, scale, minimum extent and
border alone, so they are built when the surrogate is made and again when its scale changes
(`Surrogate.rebuildBounds`); a query places a copy of the one it asks for.
-/

namespace SceneGuard

/-- A copy of what collisions ask about an entity, with its two boxes. -/
structure Surrogate (α : Type) where
  id : EntityId
  kind : EntityKind
  parent : Option EntityId
  position : Vec3 α
  rotation : AxisAngle α
  scale : Vec3 α
  size : Vec3 α
  minimumExtent : Option (Vec3 α)
  border : Vec3 α
  mesh : List (Triangle α)
  /-- The unplaced box, stretched and bordered. -/
  defaultBounds : Obb α
  /-- The unplaced box inflated to the minimum extent; none when no axis is thinner than that. -/
  extendedBounds? : Option (Obb α)
  /-- Not removed in this pass. Only enabled surrogates collide. -/
  enabled : Bool := true
  deriving DecidableEq, BEq

namespace Surrogate

section Data

variable {α : Type}

/-- The surrogate of an entity that is removed in this pass. -/
def disabled (s : Surrogate α) : Surrogate α := { s with enabled := false }

/-- The extended box where it is asked for and there is one, else the default box. -/
def bounds (s : Surrogate α) (extended : Bool) : Obb α :=
  if extended then s.extendedBounds?.getD s.defaultBounds else s.defaultBounds

/-- Whether position, rotation, scale and parent differ from those of an entity. -/
def changes [BEq α] (s : Surrogate α) (e : Entity α) : List Bool :=
  [s.position != e.position, s.rotation != e.rotation, s.scale != e.scale, s.parent != e.parent]

end Data

variable {α : Type} [Scalar α]

/-! ## Boxes -/

/-- The box around the origin with the given size, stretched and bordered. -/
def boxAround (size scale border : Vec3 α) : LocalBox α :=
  let half := size.scaled 0.5
  { min := -half, max := half, scale := scale, border := border }

/-- What the default box is, as the surrogate stands. -/
def defaultShape (s : Surrogate α) : LocalBox α := boxAround s.size s.scale s.border

/-- The extent along each axis, without a sign. -/
def extent (s : Surrogate α) : Vec3 α := (s.size.times s.scale).map Scalar.abs

/-- The box inflated to the minimum extent; none when the entity is nowhere thinner than that. -/
def extendedShape? (s : Surrogate α) : Option (LocalBox α) :=
  s.minimumExtent.bind fun minimum =>
    let thin := Vec3.zipWith (fun own least => decide (own < least)) s.extent minimum
    if thin.any (fun b => b) then
      let size :=
        Vec3.zipWith (fun own least => if own < least then least else own) s.extent minimum
      -- the extents are scaled already
      some (boxAround size (.splat 1) s.border)
    else none

/-- What the box that is asked for looks like, as the surrogate stands. -/
def shape (s : Surrogate α) (extended : Bool) : LocalBox α :=
  if extended then s.extendedShape?.getD s.defaultShape else s.defaultShape

/-- The unplaced box of a description. -/
def unplaced (shape : LocalBox α) : Obb α :=
  (Obb.new shape.min shape.max shape.scale).withBorder shape.border

/-- Build both boxes anew. Nothing else changes. -/
def rebuildBounds (s : Surrogate α) : Surrogate α :=
  { s with
    defaultBounds := unplaced s.defaultShape
    extendedBounds? := s.extendedShape?.map unplaced }

/-! ## Surrogates of entities -/

/-- The surrogate that shows an entity as it stands in the scene. -/
def ofEntity (e : Entity α) : Surrogate α :=
  rebuildBounds
    { id := e.id
      kind := e.kind
      parent := e.parent
      position := e.position
      rotation := e.rotation
      scale := e.scale
      size := e.size
      minimumExtent := e.minimumExtent
      border := e.border
      mesh := e.mesh
      -- these two stand for no box yet
      defaultBounds := .new (.splat 0) (.splat 0) (.splat 1)
      extendedBounds? := none }

/-- The surrogate after an edit of its entity; none when the edit leaves the placement alone. -/
def edit (s : Surrogate α) : Edit α → Option (Surrogate α)
  | .add _ e => some (ofEntity e)
  | .remove .. => some s.disabled
  | .move _ _ after => some { s with position := after }
  | .rotate _ _ after => some { s with rotation := after }
  | .scale _ _ after =>
    -- of all edits this one alone bears on the boxes
    some (rebuildBounds { s with position := after.position, scale := after.scale })
  | .reparent _ _ after => some { s with parent := after.parent, position := after.position }
  | .changeProperty .. => none

/--
The surrogate after a command; none when the command leaves its placement alone, as a composite
does, a property change and a command for another entity.
-/
def apply (s : Surrogate α) : Command α → Option (Surrogate α)
  | .single _ e => if e.entityId = s.id then s.edit e else none
  | .composite .. => none

/-- Placement relative to the parent. The scale has no part in it. -/
def localTransform (s : Surrogate α) : Transform α := .ofPlacement s.position s.rotation

/-- The mesh, stretched about the origin of the entity. The scale is no part of the placement, so
it is applied here. -/
def scaledMesh (s : Surrogate α) : List (Triangle α) :=
  s.mesh.map fun t => t.map (·.times s.scale)

end Surrogate

end SceneGuard
