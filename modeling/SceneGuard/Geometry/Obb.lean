import SceneGuard.Geometry.Aabb
import SceneGuard.Geometry.Triangle

/-!
# Oriented boxes

A placed box with its own axes. The box along the world axes that encloses it serves as a quick
reject; after it, two boxes are apart when one of fifteen directions separates them: the three axes
of each box and the nine products of an axis of one and an axis of the other.
-/

namespace SceneGuard

/--
A box, where it is placed, and the frame it has there. Its own frame is kept beside them, so that
placing the box again starts from its description and not from where it was.
-/
@[ext]
structure Obb (α : Type) where
  /-- The box along the world axes that encloses the placed box. -/
  bounds : Aabb α
  placement : Transform α
  localCenter : Vec3 α
  localHalf : Vec3 α
  center : Vec3 α
  axes : Vec3 (Vec3 α)
  /-- Half extents along the box's own axes. -/
  half : Vec3 α
  deriving DecidableEq, BEq, Repr

namespace Obb

variable {α : Type} [Scalar α]

/--
The unit direction of a placed axis and the half extent along it: a stretching placement lengthens
the half extent. An axis that collapses stays as it is in the box's own frame, and the box is flat
along it.
-/
def placedAxis (t : Transform α) (localHalf : Vec3 α) (i : Axis) : Vec3 α × α :=
  let axis := t.direction (.unit i)
  let length := axis.norm
  if Transform.lengthTolerance < length then (axis.divided length, localHalf.along i * length)
  else (.unit i, 0)

/-- Place the box anew. What it is in its own frame stays, so placements do not add up. -/
def transform (b : Obb α) (t : Transform α) : Obb α :=
  let placed := placedAxis t b.localHalf
  { b with
    bounds := b.bounds.transform t
    placement := t
    center := t.point b.localCenter
    axes := Vec3.ofAxes fun i => (placed i).1
    half := Vec3.ofAxes fun i => (placed i).2 }

/-- The own frame read anew from the description, and the box placed again where it was. -/
def update (b : Obb α) : Obb α :=
  let bounds := b.bounds.update
  { b with bounds, localCenter := bounds.center, localHalf := bounds.half }.transform b.placement

/-- A box along the axes as an oriented one. Where it was placed is forgotten. -/
def ofAabb (bounds : Aabb α) : Obb α :=
  update
    { bounds
      placement := .identity
      localCenter := .splat 0
      localHalf := .splat 0
      center := .splat 0
      axes := Vec3.ofAxes .unit
      half := .splat 0 }

/-- The unplaced box between two corners, without a border. -/
def new (min max scale : Vec3 α) : Obb α := ofAabb (.new min max scale)

/-- Another border; the box stays where it is placed. -/
def withBorder (b : Obb α) (border : Vec3 α) : Obb α :=
  { b with bounds := b.bounds.withBorder border }.update

/-- The box of a description, placed. -/
def place (shape : LocalBox α) (t : Transform α) : Obb α := (ofAabb (.ofShape shape)).transform t

/-- To place a box does not change what it is. -/
@[simp] theorem shape_transform (b : Obb α) (t : Transform α) :
    (b.transform t).bounds.shape = b.bounds.shape := rfl

/-- Each placement replaces the one before. -/
@[simp] theorem placement_transform (b : Obb α) (t : Transform α) :
    (b.transform t).placement = t := rfl

@[simp] theorem localCenter_transform (b : Obb α) (t : Transform α) :
    (b.transform t).localCenter = b.localCenter := rfl

@[simp] theorem localHalf_transform (b : Obb α) (t : Transform α) :
    (b.transform t).localHalf = b.localHalf := rfl

/-- The full extents of a box along its own axes. -/
def size (b : Obb α) : Vec3 α := b.half.scaled 2.0

/-- Two unit axes whose cosine is above this in size count as parallel. -/
def parallelCosine : α := 0.999999

/-- Two boxes seen from the first: `r` holds the cosines between their axes,
`t` the way to the second. -/
structure Relative (α : Type) where
  a : Vec3 α
  b : Vec3 α
  r : Vec3 (Vec3 α)
  absR : Vec3 (Vec3 α)
  t : Vec3 α

/-- The second box as seen from the first. All cosines are computed once, for the fifteen tests. -/
def relative (a b : Obb α) : Relative α :=
  let r := a.axes.map fun u => b.axes.map fun v => u.dot v
  let d := b.center - a.center
  { a := a.half
    b := b.half
    r := r
    absR := r.map (·.map Scalar.abs)
    t := a.axes.map fun u => d.dot u }

namespace Relative

/-- An axis of one box runs along an axis of the other: products of axes say nothing then. -/
def parallel (f : Relative α) : Bool :=
  f.absR.any fun row => row.any fun c => decide (parallelCosine < c)

/-- Along one of the axes of the first box the two are at least `epsilon` apart. -/
def separatedByFirst (f : Relative α) (epsilon : α) : Bool :=
  Axis.all.any fun i =>
    let row := f.absR.along i
    let rb := f.b.x * row.x + f.b.y * row.y + f.b.z * row.z
    decide (f.a.along i + rb + epsilon ≤ Scalar.abs (f.t.along i))

/-- Along one of the axes of the second box the two are at least `epsilon` apart. -/
def separatedBySecond (f : Relative α) (epsilon : α) : Bool :=
  Axis.all.any fun j =>
    let ra := f.a.x * f.absR.x.along j + f.a.y * f.absR.y.along j + f.a.z * f.absR.z.along j
    let way := f.t.x * f.r.x.along j + f.t.y * f.r.y.along j + f.t.z * f.r.z.along j
    decide (ra + f.b.along j + epsilon ≤ Scalar.abs way)

/-- The two other axes, in their order. -/
def others : Axis → Axis × Axis
  | .x => (.y, .z)
  | .y => (.x, .z)
  | .z => (.x, .y)

/-- The way between the centers along the product of axis `i` of the first
box and axis `j` of the second. -/
def crossWay (f : Relative α) (i j : Axis) : α :=
  match i with
  | .x => f.t.z * f.r.y.along j - f.t.y * f.r.z.along j
  | .y => f.t.x * f.r.z.along j - f.t.z * f.r.x.along j
  | .z => f.t.y * f.r.x.along j - f.t.x * f.r.y.along j

/-- Along the product of axis `i` of the first box and axis `j` of the
second they are `epsilon` apart. -/
def separatedByProduct (f : Relative α) (epsilon : α) (i j : Axis) : Bool :=
  let (i1, i2) := others i
  let (j1, j2) := others j
  let ra := f.a.along i1 * (f.absR.along i2).along j + f.a.along i2 * (f.absR.along i1).along j
  let rb := f.b.along j1 * (f.absR.along i).along j2 + f.b.along j2 * (f.absR.along i).along j1
  decide (ra + rb + epsilon ≤ Scalar.abs (f.crossWay i j))

/-- Along the product of some axis of each box they are `epsilon` apart. -/
def separatedByProducts (f : Relative α) (epsilon : α) : Bool :=
  Axis.all.any fun i => Axis.all.any fun j => f.separatedByProduct epsilon i j

end Relative

/--
Whether two placed boxes overlap, every comparison relaxed by `epsilon`: boxes that touch overlap
only for a positive `epsilon`. The products of axes are left out when the boxes have parallel axes.
-/
def intersects (a b : Obb α) (epsilon : α) : Bool :=
  a.bounds.intersects b.bounds epsilon &&
    let f := a.relative b
    !f.separatedByFirst epsilon && !f.separatedBySecond epsilon
      && (f.parallel || !f.separatedByProducts epsilon)

/-- Whether a point lies inside or on the box, give or take the length tolerance. -/
def contains (b : Obb α) (p : Vec3 α) : Bool :=
  let d := p - b.center
  Axis.all.all fun i =>
    decide (Scalar.abs (d.dot (b.axes.along i)) ≤ b.half.along i + Transform.lengthTolerance)

/--
Whether a triangle meets the box. The test runs in the box's own frame; a placement without an
inverse leaves the enclosing box along the axes.
-/
def meetsTriangle (b : Obb α) (t : Triangle α) : Bool :=
  match b.placement.inverse? with
  | some inverse => (t.map inverse.point).meetsBox b.localCenter b.localHalf
  | none => t.meetsBox b.bounds.center b.bounds.half

end Obb

end SceneGuard
