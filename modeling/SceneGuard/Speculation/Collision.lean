import SceneGuard.Speculation.View

/-!
# Collisions

Which entities a command's entity would overlap. The command is tried on a surrogate; its box, and
on request the boxes of everything below it, are tested against every entity outside its own family.
-/

namespace SceneGuard

/-- What a query for collisions goes by. -/
structure CollisionOptions (α : Type) where
  /-- Surrogates hide live entities. -/
  useSurrogates : Bool := true
  /-- Test with the extended boxes of the command's entity and those below it. -/
  extendEntity : Bool := false
  extendTargets : Bool := false
  /-- Added to the tolerance of the working set. -/
  margin : α
  deriving DecidableEq, BEq, Repr

namespace View

variable {α : Type} [Scalar α]

/-- The surrogate a command makes of its entity;
none when the command leaves the placement alone. -/
def speculate (v : View α) : Command α → Except (Fault α) (Option (Surrogate α))
  | .composite .. => .ok none
  | .single h (.add role e) => .ok ((Surrogate.ofEntity e).apply (.single h (.add role e)))
  | .single h e => do
    let s ← v.settled e.entityId
    return s.apply (.single h e)

/-- What stands in the way at a target: its placed box, and its placed mesh if it has one. -/
structure Obstacle (α : Type) where
  box : Obb α
  mesh : List (Triangle α)

/--
Whether a box hits an obstacle. A mesh refines the box: one of its triangles has to meet the probe,
or the center of the probe has to lie inside, since a box wholly inside a mesh meets no triangle.
-/
def Obstacle.hitBy (o : Obstacle α) (epsilon : α) (probe : Obb α) : Bool :=
  probe.intersects o.box epsilon
    && (o.mesh.isEmpty || o.mesh.any (fun t => probe.meetsTriangle t) ||
      Mesh.contains o.mesh probe.center)

/-- The obstacle at an entity; none for what cannot be hit. -/
def obstacle? (v : View α) (zone : Option EntityId) (extended : Bool) (target : EntityId) :
    Except (Fault α) (Option (Obstacle α)) := do
  let s ← v.state target
  if !s.enabled || s.kind = .zone then
    return none
  -- with an active zone only what hangs below it is in the way
  if let some z := zone then
    if !(← v.ancestors target).contains z then
      return none
  let world ← v.worldTransform target
  return some
    { box := (s.bounds extended).transform world
      mesh := s.scaledMesh.map (·.map world.point) }

/-- The targets, in order, that one of the probes hits. -/
def hits (v : View α) (options : CollisionOptions α) (probes : List (Obb α)) :
    List EntityId → Except (Fault α) (List EntityId)
  | [] => .ok []
  | target :: rest => do
    let obstacle ← v.obstacle? v.scene.activeZone options.extendTargets target
    let epsilon := v.working.epsilon + options.margin
    let hit := match obstacle with
      | some o => probes.any (o.hitBy epsilon)
      | none => false
    let more ← v.hits options probes rest
    return if hit then target :: more else more

end View

namespace WorkingSet

variable {α : Type}

/-- The scene with this working set laid over it. -/
def view (w : WorkingSet α) (scene : Scene α) : View α := { scene, working := w }

variable [Scalar α]

/-- The surrogate a command makes of its entity, as the working set stands. -/
def surrogateFor (w : WorkingSet α) (scene : Scene α) (c : Command α) :
    Except (Fault α) (Option (Surrogate α)) :=
  (w.view scene).speculate c

/-- The placed box of an entity, as the working set stands. -/
def worldBounds (w : WorkingSet α) (scene : Scene α) (id : EntityId) (extended : Bool) :
    Except (Fault α) (Option (Obb α)) :=
  (w.view scene).worldBounds id extended

/-- The placed box of a command's entity once the command has been applied; none when the command
leaves placements alone. -/
def worldBoundsAfter (w : WorkingSet α) (scene : Scene α) (c : Command α) (extended : Bool) :
    Except (Fault α) (Option (Obb α)) := do
  match ← w.surrogateFor scene c with
  | none => return none
  | some s =>
    let v : View α := { w.view scene with candidate := some s }
    v.worldBounds s.id extended

/--
The entities that the command's entity would overlap, ascending; none when there are none. With
`withDescendants` everything below the entity is tested too.
-/
def collide (w : WorkingSet α) (scene : Scene α) (c : Command α) (options : CollisionOptions α)
    (withDescendants : Bool) : Except (Fault α) (Option (List EntityId)) := do
  if c.kind.isRemove then
    return none
  let base : View α := { w.view scene with useSurrogates := options.useSurrogates }
  match ← base.speculate c with
  | none => return none
  | some candidate =>
    if candidate.kind = .zone || !candidate.enabled then
      return none
    let id := candidate.id
    let v : View α := { base with candidate := some candidate }
    let below ← v.descendants id
    -- nothing collides with what it hangs below, nor with what hangs below it
    let family := id :: (← v.ancestors id) ++ below
    let tested := if withDescendants then id :: below else [id]
    let probes ← tested.mapM fun t => v.worldBounds t options.extendEntity
    let targets := v.knownIds.filter fun t => !family.contains t
    let hits ← v.hits options (probes.filterMap (fun b => b)) targets
    return if hits.isEmpty then none else some hits

end WorkingSet

end SceneGuard
