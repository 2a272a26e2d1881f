import SceneGuard.Number.Scalar

/-!
# Vectors

Triples along the three axes, used for points, directions, extents and per-axis factors alike.
-/

namespace SceneGuard

/-- The three axes, by which boxes and tests go through vectors. -/
inductive Axis where
  | x
  | y
  | z
  deriving DecidableEq, Repr

/-- The axes in the order of the tests. -/
def Axis.all : List Axis := [.x, .y, .z]

/-- A triple of anything: scalars, and also vectors, where it is a matrix by rows. -/
@[ext]
structure Vec3 (α : Type) where
  x : α
  y : α
  z : α
  deriving DecidableEq, BEq, Repr

namespace Vec3

section Container

variable {α β γ : Type}

/-- The same entry along every axis. -/
def splat (a : α) : Vec3 α := ⟨a, a, a⟩

/-- The entry along an axis. -/
def along (v : Vec3 α) : Axis → α
  | .x => v.x
  | .y => v.y
  | .z => v.z

/-- The triple with an entry for each axis. -/
def ofAxes (f : Axis → α) : Vec3 α := ⟨f .x, f .y, f .z⟩

/-- Change every entry in the same way. -/
def map (f : α → β) (v : Vec3 α) : Vec3 β := ⟨f v.x, f v.y, f v.z⟩

/-- Join two triples entry by entry. -/
def zipWith (f : α → β → γ) (v : Vec3 α) (w : Vec3 β) : Vec3 γ := ⟨f v.x w.x, f v.y w.y, f v.z w.z⟩

def toList (v : Vec3 α) : List α := [v.x, v.y, v.z]

def all (p : α → Bool) (v : Vec3 α) : Bool := p v.x && p v.y && p v.z

def any (p : α → Bool) (v : Vec3 α) : Bool := p v.x || p v.y || p v.z

@[simp] theorem ofAxes_along (v : Vec3 α) : ofAxes v.along = v := rfl

@[simp] theorem along_ofAxes (f : Axis → α) (i : Axis) : (ofAxes f).along i = f i := by
  cases i <;> rfl

@[simp] theorem along_map (f : α → β) (v : Vec3 α) (i : Axis) :
    (v.map f).along i = f (v.along i) := by
  cases i <;> rfl

@[simp] theorem along_zipWith (f : α → β → γ) (v : Vec3 α) (w : Vec3 β) (i : Axis) :
    (zipWith f v w).along i = f (v.along i) (w.along i) := by
  cases i <;> rfl

end Container

variable {α : Type} [Scalar α]

instance : Add (Vec3 α) := ⟨zipWith (· + ·)⟩

instance : Sub (Vec3 α) := ⟨zipWith (· - ·)⟩

instance : Neg (Vec3 α) := ⟨map (- ·)⟩

/-- The product entry by entry, as sizes are stretched by a scale. -/
def times (v w : Vec3 α) : Vec3 α := zipWith (· * ·) v w

/-- Every entry times one factor. -/
def scaled (v : Vec3 α) (k : α) : Vec3 α := v.map (· * k)

/-- Every entry by one divisor. This is not the product with an inverse, which rounds otherwise. -/
def divided (v : Vec3 α) (k : α) : Vec3 α := v.map (· / k)

/-- The smaller entry along each axis. -/
def lower (v w : Vec3 α) : Vec3 α := zipWith Scalar.lower v w

/-- The greater entry along each axis. -/
def upper (v w : Vec3 α) : Vec3 α := zipWith Scalar.upper v w

/-- The scalar product, summed from the left. -/
def dot (v w : Vec3 α) : α := v.x * w.x + v.y * w.y + v.z * w.z

/-- The vector product, which stands on both factors. -/
def cross (v w : Vec3 α) : Vec3 α :=
  ⟨v.y * w.z - v.z * w.y, v.z * w.x - v.x * w.z, v.x * w.y - v.y * w.x⟩

/-- The length of a vector. -/
def norm (v : Vec3 α) : α := Scalar.sqrt (v.dot v)

/-- The vector of length one along an axis. -/
def unit : Axis → Vec3 α
  | .x => ⟨1, 0, 0⟩
  | .y => ⟨0, 1, 0⟩
  | .z => ⟨0, 0, 1⟩

/-- Determinant of the matrix with columns `u`, `v`, `w`. -/
def triple (u v w : Vec3 α) : α :=
  u.x * v.y * w.z - u.x * v.z * w.y - v.x * u.y * w.z + v.x * u.z * w.y + w.x * u.y * v.z
    - w.x * u.z * v.y

end Vec3

/-- A triangle by its corners. Their order gives the direction of its normal. -/
@[ext]
structure Triangle (α : Type) where
  a : Vec3 α
  b : Vec3 α
  c : Vec3 α
  deriving DecidableEq, BEq, Repr

namespace Triangle

variable {α β : Type}

/-- Move all three corners. -/
def map (f : Vec3 α → Vec3 β) (t : Triangle α) : Triangle β := ⟨f t.a, f t.b, f t.c⟩

end Triangle

end SceneGuard
