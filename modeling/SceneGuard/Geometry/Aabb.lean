import SceneGuard.Geometry.Transform

/-!
# Boxes along the axes

A box is described in its own frame (`LocalBox`) and placed in the world (`Aabb`). The description
is kept beside the region the box was found to fill, so a box is placed anew each time and errors
never add up. What is read off that region (its center, its half extents, its corners) is stored
with it: `Aabb.setExtents` is the one way to write any of these.
-/

namespace SceneGuard

/--
A box in its own frame: two opposite corners in any order, a factor per axis (a negative one
mirrors) and a border by which every face moves outwards.
-/
@[ext]
structure LocalBox (α : Type) where
  min : Vec3 α
  max : Vec3 α
  scale : Vec3 α
  border : Vec3 α
  deriving DecidableEq, BEq, Repr

/-- The region between a lower and an upper corner. -/
@[ext]
structure Extents (α : Type) where
  min : Vec3 α
  max : Vec3 α
  deriving DecidableEq, BEq, Repr

namespace Extents

variable {α : Type} [Scalar α]

/-- The middle of a region. -/
def center (e : Extents α) : Vec3 α := (e.min + e.max).scaled 0.5

/-- Half the way from the lower to the upper corner. -/
def half (e : Extents α) : Vec3 α := (e.max - e.min).scaled 0.5

/-- The eight corners of a region. -/
def corners (e : Extents α) : List (Vec3 α) :=
  [⟨e.min.x, e.min.y, e.min.z⟩, ⟨e.min.x, e.min.y, e.max.z⟩,
    ⟨e.min.x, e.max.y, e.min.z⟩, ⟨e.min.x, e.max.y, e.max.z⟩,
    ⟨e.max.x, e.min.y, e.min.z⟩, ⟨e.max.x, e.min.y, e.max.z⟩,
    ⟨e.max.x, e.max.y, e.min.z⟩, ⟨e.max.x, e.max.y, e.max.z⟩]

/-- The least region that holds some points; without a point it is `e`. -/
def around (e : Extents α) : List (Vec3 α) → Extents α
  | [] => e
  | p :: ps => ⟨ps.foldl Vec3.lower p, ps.foldl Vec3.upper p⟩

/-- The least region along the axes that holds the image of `e`. -/
def image (t : Transform α) (e : Extents α) : Extents α := e.around (e.corners.map t.point)

/--
Whether two regions overlap, every comparison relaxed by `epsilon`. Regions that share a face alone
overlap only for a positive `epsilon`.
-/
def overlaps (e f : Extents α) (epsilon : α) : Bool :=
  decide (e.min.x < f.max.x + epsilon) && decide (f.min.x < e.max.x + epsilon)
    && decide (e.min.y < f.max.y + epsilon) && decide (f.min.y < e.max.y + epsilon)
    && decide (e.min.z < f.max.z + epsilon) && decide (f.min.z < e.max.z + epsilon)

/-- Whether a point lies inside or on the faces. -/
def contains (e : Extents α) (p : Vec3 α) : Bool :=
  Scalar.within e.min.x e.max.x p.x && Scalar.within e.min.y e.max.y p.y
    && Scalar.within e.min.z e.max.z p.z

end Extents

namespace LocalBox

variable {α : Type} [Scalar α]

/-- The region the box fills in its own frame: stretched, put in order and then bordered. -/
def extents (b : LocalBox α) : Extents α :=
  let p := b.min.times b.scale
  let q := b.max.times b.scale
  ⟨p.lower q - b.border, p.upper q + b.border⟩

end LocalBox

/--
A box along the axes, and where it was last placed: the region it fills there, with the center, the
half extents and the eight corners of that region.
-/
@[ext]
structure Aabb (α : Type) where
  shape : LocalBox α
  extents : Extents α
  center : Vec3 α
  half : Vec3 α
  corners : List (Vec3 α)
  deriving DecidableEq, BEq, Repr

namespace Aabb

variable {α : Type} [Scalar α]

/-- The box fills another region. All that is stored about the old one is written anew. -/
def setExtents (b : Aabb α) (e : Extents α) : Aabb α :=
  { b with
    extents := e
    center := e.center
    half := e.half
    corners := e.corners }

/-- Back to the box's own frame: the placement is forgotten. -/
def update (b : Aabb α) : Aabb α := b.setExtents b.shape.extents

/-- The unplaced box of a description. -/
def ofShape (shape : LocalBox α) : Aabb α :=
  update
    { shape
      extents := ⟨shape.min, shape.max⟩
      center := .splat 0
      half := .splat 0
      corners := List.replicate 8 (.splat 0) }

/-- The unplaced box between two corners, without a border. -/
def new (min max scale : Vec3 α) : Aabb α := ofShape ⟨min, max, scale, .splat 0⟩

/-- Another border. The placement is forgotten. -/
def withBorder (b : Aabb α) (border : Vec3 α) : Aabb α :=
  update { b with shape := { b.shape with border := border } }

/-- Place the box: the least region is taken that holds the images of its unplaced corners. -/
def transform (b : Aabb α) (t : Transform α) : Aabb α :=
  -- an earlier placement has no part in the result: the corners stored are not those of the world
  let b := b.update
  b.setExtents (b.extents.around (b.corners.map t.point))

/-- Whether two placed boxes overlap, every comparison relaxed by `epsilon`. -/
def intersects (a b : Aabb α) (epsilon : α) : Bool := a.extents.overlaps b.extents epsilon

/-- Whether a point lies inside the placed box or on its faces. -/
def contains (b : Aabb α) (p : Vec3 α) : Bool := b.extents.contains p

@[simp] theorem shape_setExtents (b : Aabb α) (e : Extents α) :
    (b.setExtents e).shape = b.shape := rfl

@[simp] theorem extents_setExtents (b : Aabb α) (e : Extents α) :
    (b.setExtents e).extents = e := rfl

@[simp] theorem center_setExtents (b : Aabb α) (e : Extents α) :
    (b.setExtents e).center = e.center :=
  rfl

@[simp] theorem half_setExtents (b : Aabb α) (e : Extents α) : (b.setExtents e).half = e.half := rfl

@[simp] theorem corners_setExtents (b : Aabb α) (e : Extents α) :
    (b.setExtents e).corners = e.corners :=
  rfl

/-- A box that was placed or bordered starts from its own description. -/
@[simp] theorem shape_ofShape (shape : LocalBox α) : (ofShape shape).shape = shape := rfl

/-- Updating a box leaves of it what its description says. -/
theorem update_eq (b : Aabb α) : b.update = ofShape b.shape := rfl

/-- A border replaces the one there is, and the box goes back to its own frame. -/
theorem withBorder_eq (b : Aabb α) (border : Vec3 α) :
    b.withBorder border = ofShape { b.shape with border := border } := rfl

/-- A placed box fills the image of what its description fills. -/
theorem transform_eq (b : Aabb α) (t : Transform α) :
    b.transform t = b.setExtents (b.shape.extents.image t) := rfl

end Aabb

end SceneGuard
