import SceneGuard.Geometry.Vector

/-!
# Triangles against boxes, and points against meshes

A triangle and a box along the axes are apart exactly when one of thirteen directions separates
them: nine products of a box axis and a triangle edge, the three box axes, and the normal of the
triangle. A point is inside a closed mesh when a ray from it meets the mesh an odd number of times.
-/

namespace SceneGuard

namespace Triangle

variable {α : Type} [Scalar α]

/-- The least of three numbers. -/
def least (p q r : α) : α := Scalar.least (Scalar.least p q) r

/-- The greatest of three numbers. -/
def greatest (p q r : α) : α := Scalar.greatest (Scalar.greatest p q) r

/-- Whether the interval of `p`, `q`, `r` lies wholly outside `-radius .. radius`. -/
def misses (p q r radius : α) : Bool :=
  decide (radius < least p q r) || decide (greatest p q r < -radius)

/-- The edges of a triangle, each as the way from one corner to the next. -/
def edges (t : Triangle α) : List (Vec3 α) := [t.b - t.a, t.c - t.b, t.a - t.c]

/--
Whether `direction` separates the triangle from the box around the origin with half extents `half`:
the triangle's interval along it lies outside the box's.
-/
def separatedAlong (half : Vec3 α) (t : Triangle α) (direction : Vec3 α) : Bool :=
  let radius := half.x * Scalar.abs direction.x + half.y * Scalar.abs direction.y
    + half.z * Scalar.abs direction.z
  misses (t.a.dot direction) (t.b.dot direction) (t.c.dot direction) radius

/-- One of the nine products of a box axis and an edge separates the two. -/
def separatedByEdges (half : Vec3 α) (t : Triangle α) : Bool :=
  t.edges.any fun edge => Axis.all.any fun i => separatedAlong half t ((Vec3.unit i).cross edge)

/-- One of the three box axes separates the two. -/
def separatedByFaces (half : Vec3 α) (t : Triangle α) : Bool :=
  Axis.all.any fun i => misses (t.a.along i) (t.b.along i) (t.c.along i) (half.along i)

/-- Whether the plane through `vertex` with the given normal meets the box around the origin. -/
def planeMeets (half normal vertex : Vec3 α) : Bool :=
  -- the corners of the box farthest against and farthest along the normal, seen from the vertex
  let against := Vec3.ofAxes fun i =>
    if 0 < normal.along i then -half.along i - vertex.along i else half.along i - vertex.along i
  let farthest := Vec3.ofAxes fun i =>
    if 0 < normal.along i then half.along i - vertex.along i else -half.along i - vertex.along i
  !decide (0 < normal.dot against) && decide (0 ≤ normal.dot farthest)

/-- Whether the triangle meets the box around the origin. Touching counts. -/
def meetsCentered (half : Vec3 α) (t : Triangle α) : Bool :=
  !separatedByEdges half t && !separatedByFaces half t
    && planeMeets half ((t.b - t.a).cross (t.c - t.b)) t.a

/-- Whether the triangle meets the box around `center` with half extents `half`. Touching counts. -/
def meetsBox (t : Triangle α) (center half : Vec3 α) : Bool :=
  meetsCentered half (t.map (· - center))

/-- Below this determinant a ray counts as parallel to the triangle. -/
def parallelDet : α := 1e-12

/-- Whether the ray from `origin` in `direction` meets the triangle beyond its start. -/
def hitByRay (t : Triangle α) (origin direction : Vec3 α) : Bool :=
  let e1 := t.b - t.a
  let e2 := t.c - t.a
  let p := direction.cross e2
  let det := e1.dot p
  if Scalar.abs det < parallelDet then false
  else
    -- barycentric coordinates `u` and `v` of the point where the line meets the plane
    let inv := 1 / det
    let s := origin - t.a
    let u := s.dot p * inv
    if !Scalar.within 0 1 u then false
    else
      let q := s.cross e1
      let v := direction.dot q * inv
      if v < 0 ∨ 1 < u + v then false
      else decide (0 < e2.dot q * inv)

end Triangle

namespace Mesh

variable {α : Type} [Scalar α]

/-- A direction skew to the edges and the diagonals of faces along the axes. -/
def rayDirection : Vec3 α := ⟨0.8716, 0.4139, 0.2626⟩

/-- How many of the triangles a fixed ray from the point meets. -/
def crossings (p : Vec3 α) (mesh : List (Triangle α)) : Nat :=
  mesh.countP fun t => t.hitByRay p rayDirection

/-- Whether a closed mesh holds the point inside. An open mesh mostly reads as outside. -/
def contains (mesh : List (Triangle α)) (p : Vec3 α) : Bool := crossings p mesh % 2 == 1

end Mesh

end SceneGuard
