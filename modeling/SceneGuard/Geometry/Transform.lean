import SceneGuard.Geometry.Vector

/-!
# Affine transforms

A transform is a 4x4 matrix kept by columns: where the three axes and the origin go. Products and
images sum their four terms from the left, in the order of the columns.
-/

namespace SceneGuard

/-- Homogeneous coordinates: a point has `w = 1`, a direction `w = 0`. -/
@[ext]
structure Vec4 (α : Type) where
  x : α
  y : α
  z : α
  w : α
  deriving DecidableEq, BEq, Repr

namespace Vec4

variable {α β γ : Type}

def map (f : α → β) (v : Vec4 α) : Vec4 β := ⟨f v.x, f v.y, f v.z, f v.w⟩

def zipWith (f : α → β → γ) (v : Vec4 α) (w : Vec4 β) : Vec4 γ :=
  ⟨f v.x w.x, f v.y w.y, f v.z w.z, f v.w w.w⟩

def toList (v : Vec4 α) : List α := [v.x, v.y, v.z, v.w]

def all (p : α → Bool) (v : Vec4 α) : Bool := p v.x && p v.y && p v.z && p v.w

/-- The coordinates without the homogeneous one. -/
def xyz (v : Vec4 α) : Vec3 α := ⟨v.x, v.y, v.z⟩

end Vec4

/-- A rotation by `angle` radians about an axis through the origin. -/
@[ext]
structure AxisAngle (α : Type) where
  axis : Vec3 α
  angle : α
  deriving DecidableEq, BEq, Repr

/-- An affine map by its columns. The last row is kept too, though placements never change it. -/
@[ext]
structure Transform (α : Type) where
  xAxis : Vec4 α
  yAxis : Vec4 α
  zAxis : Vec4 α
  origin : Vec4 α
  deriving DecidableEq, BEq, Repr

namespace Transform

section Container

variable {α β : Type}

def map (f : α → β) (t : Transform α) : Transform β :=
  ⟨t.xAxis.map f, t.yAxis.map f, t.zAxis.map f, t.origin.map f⟩

/-- Whether something is so for all sixteen entries. -/
def all (p : α → Bool) (t : Transform α) : Bool :=
  t.xAxis.all p && t.yAxis.all p && t.zAxis.all p && t.origin.all p

/-- The same matrix by rows. -/
def rows (t : Transform α) : Vec4 (Vec4 α) :=
  ⟨⟨t.xAxis.x, t.yAxis.x, t.zAxis.x, t.origin.x⟩, ⟨t.xAxis.y, t.yAxis.y, t.zAxis.y, t.origin.y⟩,
    ⟨t.xAxis.z, t.yAxis.z, t.zAxis.z, t.origin.z⟩, ⟨t.xAxis.w, t.yAxis.w, t.zAxis.w, t.origin.w⟩⟩

end Container

variable {α : Type} [Scalar α]

/-- The rigid or stretching part as three columns, with the origin sent to `o`. -/
def ofColumns (x y z o : Vec3 α) : Transform α :=
  ⟨⟨x.x, x.y, x.z, 0⟩, ⟨y.x, y.y, y.z, 0⟩, ⟨z.x, z.y, z.z, 0⟩, ⟨o.x, o.y, o.z, 1⟩⟩

/-- The transform that moves nothing. -/
def identity : Transform α :=
  ofColumns (.unit .x) (.unit .y) (.unit .z) (.splat 0)

/-- Move by a vector. -/
def translation (d : Vec3 α) : Transform α :=
  ofColumns (.unit .x) (.unit .y) (.unit .z) d

/-- Stretch along each axis by a factor of its own. -/
def stretch (k : Vec3 α) : Transform α :=
  ofColumns ⟨k.x, 0, 0⟩ ⟨0, k.y, 0⟩ ⟨0, 0, k.z⟩ (.splat 0)

/-- Turn about the upright axis. -/
def rotationZ (angle : α) : Transform α :=
  let s := Scalar.sin angle
  let c := Scalar.cos angle
  ofColumns ⟨c, s, 0⟩ ⟨-s, c, 0⟩ ⟨0, 0, 1⟩ (.splat 0)

/-- Rotation about an axis of unit length, by Rodrigues' formula. -/
def rotationAbout (axis : Vec3 α) (angle : α) : Transform α :=
  let s := Scalar.sin angle
  let c := Scalar.cos angle
  let t := 1 - c
  let x := axis.x
  let y := axis.y
  let z := axis.z
  ofColumns ⟨t * x * x + c, t * x * y + s * z, t * x * z - s * y⟩
    ⟨t * x * y - s * z, t * y * y + c, t * y * z + s * x⟩
    ⟨t * x * z + s * y, t * y * z - s * x, t * z * z + c⟩ (.splat 0)

/-- Lengths up to this one count as zero. -/
def lengthTolerance : α := 1e-6

/-- Rotation as entities state it. A zero angle, or an axis of no length, rotates nothing. -/
def ofAxisAngle (r : AxisAngle α) : Transform α :=
  if r.angle == 0 || decide (r.axis.norm < lengthTolerance) then identity
  else rotationAbout (r.axis.divided r.axis.norm) r.angle

/-- The matrix times a column. -/
def image (t : Transform α) (v : Vec4 α) : Vec4 α :=
  let dot (a b c d : α) := a * v.x + b * v.y + c * v.z + d * v.w
  ⟨dot t.xAxis.x t.yAxis.x t.zAxis.x t.origin.x, dot t.xAxis.y t.yAxis.y t.zAxis.y t.origin.y,
    dot t.xAxis.z t.yAxis.z t.zAxis.z t.origin.z, dot t.xAxis.w t.yAxis.w t.zAxis.w t.origin.w⟩

/-- Composition: the image under `t.comp u` is the image under `t` of the image under `u`. -/
def comp (t u : Transform α) : Transform α :=
  ⟨t.image u.xAxis, t.image u.yAxis, t.image u.zAxis, t.image u.origin⟩

/-- Rigid placement: rotate about the own origin, then move. -/
def ofPlacement (position : Vec3 α) (rotation : AxisAngle α) : Transform α :=
  (translation position).comp (ofAxisAngle rotation)

/-- Where a point goes. -/
def point (t : Transform α) (p : Vec3 α) : Vec3 α :=
  (t.image ⟨p.x, p.y, p.z, 1⟩).xyz

/-- Image of a direction: it is turned and stretched, and not moved. -/
def direction (t : Transform α) (v : Vec3 α) : Vec3 α :=
  (t.image ⟨v.x, v.y, v.z, 0⟩).xyz

/-- Whether no entry is infinite or no number. World placements are refused otherwise. -/
def isFinite (t : Transform α) : Bool := t.all Scalar.isFinite

/--
The cofactors, laid out as a matrix: in column `j` and row `i` stands the signed minor without
column `i` and row `j`.
-/
def adjugate (t : Transform α) : Transform α :=
  -- the coordinates of a column that remain when one of them is left out
  let noX (v : Vec4 α) : Vec3 α := ⟨v.y, v.z, v.w⟩
  let noY (v : Vec4 α) : Vec3 α := ⟨v.x, v.z, v.w⟩
  let noZ (v : Vec4 α) : Vec3 α := ⟨v.x, v.y, v.w⟩
  let noW (v : Vec4 α) : Vec3 α := ⟨v.x, v.y, v.z⟩
  let minor (drop : Vec4 α → Vec3 α) (u v w : Vec4 α) : α := (drop u).triple (drop v) (drop w)
  let withoutX (drop : Vec4 α → Vec3 α) : α := minor drop t.yAxis t.zAxis t.origin
  let withoutY (drop : Vec4 α → Vec3 α) : α := minor drop t.xAxis t.zAxis t.origin
  let withoutZ (drop : Vec4 α → Vec3 α) : α := minor drop t.xAxis t.yAxis t.origin
  let withoutO (drop : Vec4 α → Vec3 α) : α := minor drop t.xAxis t.yAxis t.zAxis
  ⟨⟨withoutX noX, -withoutY noX, withoutZ noX, -withoutO noX⟩,
    ⟨-withoutX noY, withoutY noY, -withoutZ noY, withoutO noY⟩,
    ⟨withoutX noZ, -withoutY noZ, withoutZ noZ, -withoutO noZ⟩,
    ⟨-withoutX noW, withoutY noW, -withoutZ noW, withoutO noW⟩⟩

/-- Determinant, expanded along the first column. -/
def det (t : Transform α) : α :=
  let a := t.adjugate
  t.xAxis.x * a.xAxis.x + t.xAxis.y * a.yAxis.x + t.xAxis.z * a.zAxis.x + t.xAxis.w * a.origin.x

/-- The inverse transform; none when the determinant is zero. -/
def inverse? (t : Transform α) : Option (Transform α) :=
  let d := t.det
  if d == 0 then none
  else
    let k := 1 / d
    some (t.adjugate.map (· * k))

end Transform

end SceneGuard
