import Mathlib.LinearAlgebra.Matrix.Adjugate
import SceneGuard.Geometry.Transform
import SceneGuard.Proofs.Geometry.Real

/-!
# Rigid placements

Over the reals the placement of an entity turns and moves, and does nothing else
(`Transform.Rigid`). Scales have no part in it. Main statements:

* `Rigid.comp` — one rigid placement after another is rigid;
* `Motion.rigid` — so whatever is composed of translations and rotations is;
* `rigid_ofPlacement` — every placement an entity can state is rigid, whatever its axis and angle
  are;
* `Rigid.point_injective` — different points stay different.
-/

namespace SceneGuard

open Matrix

/-!
## Coordinates

Vectors of the library are triples; the matrices of Mathlib act on functions. `coords` carries the
operations over, one lemma for each.
-/

namespace Vec3

/-- The components in order. -/
def coords (v : Vec3 ℝ) : Fin 3 → ℝ := ![v.x, v.y, v.z]

/-- A vector is told by its three coordinates. -/
theorem coords_injective : Function.Injective coords := by
  intro v w h
  have hx := congrFun h 0
  have hy := congrFun h 1
  have hz := congrFun h 2
  exact Vec3.ext hx hy hz

theorem coords_surjective : Function.Surjective coords := by
  intro f
  refine ⟨⟨f 0, f 1, f 2⟩, ?_⟩
  funext i
  fin_cases i <;> rfl

/-- The product of the program is the usual one of the coordinates. -/
theorem dot_eq (v w : Vec3 ℝ) : v.dot w = v.coords ⬝ᵥ w.coords := by
  simp [dot, coords, dotProduct, Fin.sum_univ_three]

@[simp] theorem coords_add (v w : Vec3 ℝ) : (v + w).coords = v.coords + w.coords := by
  funext i
  fin_cases i <;> rfl

@[simp] theorem coords_sub (v w : Vec3 ℝ) : (v - w).coords = v.coords - w.coords := by
  funext i
  fin_cases i <;> rfl

@[simp] theorem coords_neg (v : Vec3 ℝ) : (-v).coords = -v.coords := by
  funext i
  fin_cases i <;> rfl

@[simp] theorem coords_times (v w : Vec3 ℝ) (i : Fin 3) :
    (v.times w).coords i = v.coords i * w.coords i := by
  fin_cases i <;> rfl

@[simp] theorem coords_scaled (v : Vec3 ℝ) (k : ℝ) (i : Fin 3) :
    (v.scaled k).coords i = v.coords i * k := by
  fin_cases i <;> rfl

end Vec3

/-!
## Rotations

What is used of a rotation is that its transpose undoes it and that its determinant is one. From
these come the cross products: a rotation is its own matrix of cofactors.
-/

/-- The columns are orthogonal unit vectors, in the order of the axes. -/
structure IsRotation (R : Matrix (Fin 3) (Fin 3) ℝ) : Prop where
  orthogonal : Rᵀ * R = 1
  det : R.det = 1

namespace IsRotation

variable {R S : Matrix (Fin 3) (Fin 3) ℝ}

/-- The rows are orthogonal unit vectors, too. -/
theorem mul_transpose (h : IsRotation R) : R * Rᵀ = 1 := mul_eq_one_comm.1 h.orthogonal

/-- A rotation is turned back by its transpose, which is one too. -/
theorem transpose (h : IsRotation R) : IsRotation Rᵀ where
  orthogonal := by rw [transpose_transpose, h.mul_transpose]
  det := by rw [det_transpose, h.det]

theorem one : IsRotation 1 where
  orthogonal := by rw [transpose_one, Matrix.mul_one]
  det := det_one

theorem mul (hR : IsRotation R) (hS : IsRotation S) : IsRotation (R * S) where
  orthogonal := by
    calc (R * S)ᵀ * (R * S) = Sᵀ * (Rᵀ * R) * S := by
          rw [transpose_mul, Matrix.mul_assoc, Matrix.mul_assoc, Matrix.mul_assoc]
      _ = 1 := by rw [hR.orthogonal, Matrix.mul_one, hS.orthogonal]
  det := by rw [det_mul, hR.det, hS.det, one_mul]

/-- The cofactors of a rotation are its own entries. -/
theorem adjugate_eq (h : IsRotation R) : R.adjugate = Rᵀ := by
  calc R.adjugate = Rᵀ * R * R.adjugate := by rw [h.orthogonal, Matrix.one_mul]
    _ = Rᵀ * (R * R.adjugate) := Matrix.mul_assoc _ _ _
    _ = Rᵀ := by rw [mul_adjugate, h.det, one_smul, Matrix.mul_one]

/-- Rotations keep products, and so lengths and angles. -/
theorem dot_mulVec (h : IsRotation R) (u v : Fin 3 → ℝ) : (R *ᵥ u) ⬝ᵥ (R *ᵥ v) = u ⬝ᵥ v := by
  rw [dotProduct_mulVec, vecMul_mulVec, h.orthogonal, vecMul_one]

/-- A rotation takes different vectors to different ones. -/
theorem mulVec_injective (h : IsRotation R) : Function.Injective R.mulVec := by
  intro u v huv
  calc u = Rᵀ *ᵥ (R *ᵥ u) := by rw [mulVec_mulVec, h.orthogonal, one_mulVec]
    _ = Rᵀ *ᵥ (R *ᵥ v) := by rw [show R *ᵥ u = R *ᵥ v from huv]
    _ = v := by rw [mulVec_mulVec, h.orthogonal, one_mulVec]

end IsRotation

/-!
## Rigid transforms

A rigid transform is affine and its turning part a rotation. Both survive composition, and a point
moves by the turn and the origin.
-/

namespace Transform

variable {t u : Transform ℝ}

/-- Where the axes go. -/
def turn (t : Transform ℝ) : Matrix (Fin 3) (Fin 3) ℝ :=
  !![t.xAxis.x, t.yAxis.x, t.zAxis.x; t.xAxis.y, t.yAxis.y, t.zAxis.y; t.xAxis.z,
    t.yAxis.z, t.zAxis.z]

/-- Images of points are points. -/
structure Affine (t : Transform ℝ) : Prop where
  xAxis : t.xAxis.w = 0
  yAxis : t.yAxis.w = 0
  zAxis : t.zAxis.w = 0
  origin : t.origin.w = 1

/-- The axes are turned, and everything is moved. -/
structure Rigid (t : Transform ℝ) : Prop where
  affine : t.Affine
  rotation : IsRotation t.turn

theorem coords_point (t : Transform ℝ) (p : Vec3 ℝ) :
    (t.point p).coords = t.turn *ᵥ p.coords + t.origin.xyz.coords := by
  funext i
  fin_cases i <;>
    simp [point, image, Vec4.xyz, Vec3.coords, turn] <;> ring

/-- A direction is turned and not shifted. -/
theorem coords_direction (t : Transform ℝ) (v : Vec3 ℝ) :
    (t.direction v).coords = t.turn *ᵥ v.coords := by
  funext i
  fin_cases i <;>
    simp [direction, image, Vec4.xyz, Vec3.coords, turn] <;> ring

/-- Of two transforms, one after the other, the turns are multiplied. -/
theorem turn_comp (t : Transform ℝ) (hu : u.Affine) : (t.comp u).turn = t.turn * u.turn := by
  ext i j
  fin_cases i <;> fin_cases j <;>
    simp [comp, image, turn, mul_apply, Fin.sum_univ_three, hu.xAxis, hu.yAxis, hu.zAxis]

/-- One affine transform after another is affine. -/
theorem Affine.comp (ht : t.Affine) (hu : u.Affine) : (t.comp u).Affine := by
  constructor <;> simp [Transform.comp, image, ht.xAxis, ht.yAxis, ht.zAxis, ht.origin,
    hu.xAxis, hu.yAxis, hu.zAxis, hu.origin]

theorem Rigid.comp (ht : t.Rigid) (hu : u.Rigid) : (t.comp u).Rigid where
  affine := ht.affine.comp hu.affine
  rotation := by
    rw [turn_comp t hu.affine]
    exact ht.rotation.mul hu.rotation

/-- A composition takes a point where the two take it, the second one first. -/
theorem point_comp (t : Transform ℝ) (hu : u.Affine) (p : Vec3 ℝ) :
    (t.comp u).point p = t.point (u.point p) := by
  ext <;> simp [Transform.comp, point, image, Vec4.xyz, hu.xAxis, hu.yAxis, hu.zAxis, hu.origin] <;>
    ring

/-- Three transforms compose in either grouping. -/
theorem comp_assoc (t u w : Transform ℝ) : (t.comp u).comp w = t.comp (u.comp w) := by
  ext <;> simp [Transform.comp, image] <;> ring

theorem comp_identity (t : Transform ℝ) : t.comp identity = t := by
  ext <;> simp [Transform.comp, image, identity, ofColumns, Vec3.unit, Vec3.splat]

theorem point_identity (p : Vec3 ℝ) : (identity : Transform ℝ).point p = p := by
  ext <;> simp [point, image, identity, ofColumns, Vec4.xyz, Vec3.unit, Vec3.splat]

theorem Rigid.point_injective (ht : t.Rigid) : Function.Injective t.point := by
  intro p q h
  have hcoords := congrArg Vec3.coords h
  rw [coords_point, coords_point, add_left_inj] at hcoords
  exact Vec3.coords_injective (ht.rotation.mulVec_injective hcoords)

theorem Rigid.exists_point (ht : t.Rigid) (x : Vec3 ℝ) : ∃ p, t.point p = x := by
  obtain ⟨p, hp⟩ := Vec3.coords_surjective (t.turnᵀ *ᵥ (x.coords - t.origin.xyz.coords))
  refine ⟨p, Vec3.coords_injective ?_⟩
  rw [coords_point, hp, mulVec_mulVec, ht.rotation.mul_transpose, one_mulVec, sub_add_cancel]

/-!
## The placements of entities

Rodrigues' formula gives a rotation for every axis of length one. A shorter axis, or a zero angle,
is answered with the identity before the formula is reached.
-/

theorem affine_ofColumns (x y z o : Vec3 ℝ) : (ofColumns x y z o).Affine := ⟨rfl, rfl, rfl, rfl⟩

theorem turn_translation (d : Vec3 ℝ) : (translation d).turn = 1 := by
  ext i j
  fin_cases i <;> fin_cases j <;> simp [translation, ofColumns, turn, Vec3.unit]

theorem rigid_translation (d : Vec3 ℝ) : (translation d).Rigid where
  affine := affine_ofColumns _ _ _ _
  rotation := by
    rw [turn_translation]
    exact .one

theorem rigid_identity : (identity : Transform ℝ).Rigid := rigid_translation (.splat 0)

/-- A turn about an axis of length one is rigid, whatever the angle. -/
theorem rigid_rotationAbout {axis : Vec3 ℝ} (h : axis.dot axis = 1) (angle : ℝ) :
    (rotationAbout axis angle).Rigid where
  affine := affine_ofColumns _ _ _ _
  rotation := by
    -- the entries are polynomials in sine, cosine and axis, which two equations bind
    have hangle := Real.sin_sq_add_cos_sq angle
    unfold Vec3.dot at h
    generalize hs : Real.sin angle = s at hangle
    generalize hc : Real.cos angle = c at hangle
    have hturn : (rotationAbout axis angle).turn =
        !![(1 - c) * axis.x * axis.x + c, (1 - c) * axis.x * axis.y - s * axis.z,
            (1 - c) * axis.x * axis.z + s * axis.y;
          (1 - c) * axis.x * axis.y + s * axis.z, (1 - c) * axis.y * axis.y + c,
            (1 - c) * axis.y * axis.z - s * axis.x;
          (1 - c) * axis.x * axis.z - s * axis.y, (1 - c) * axis.y * axis.z + s * axis.x,
            (1 - c) * axis.z * axis.z + c] := by
      rw [← hs, ← hc]
      rfl
    rw [hturn]
    constructor
    · ext i j
      fin_cases i <;> fin_cases j <;> simp [mul_apply, Fin.sum_univ_three] <;> grind
    · rw [det_fin_three]
      simp
      grind

/-- What translations, and rotations about axes of unit length, compose to. -/
inductive Motion : Transform ℝ → Prop where
  | translation (d : Vec3 ℝ) : Motion (translation d)
  | rotation {axis : Vec3 ℝ} (h : axis.dot axis = 1) (angle : ℝ) : Motion (rotationAbout axis angle)
  | comp {t u : Transform ℝ} (ht : Motion t) (hu : Motion u) : Motion (t.comp u)

/-- What is built of shifts and turns is rigid. -/
theorem Motion.rigid (h : Motion t) : t.Rigid := by
  induction h with
  | translation d => exact rigid_translation d
  | rotation h angle => exact rigid_rotationAbout h angle
  | comp _ _ ht hu => exact ht.comp hu

theorem motion_identity : Motion identity := .translation (.splat 0)

/-- A stated rotation is a motion, also with an axis that has no length. -/
theorem motion_ofAxisAngle (r : AxisAngle ℝ) : Motion (ofAxisAngle r) := by
  unfold ofAxisAngle
  split
  · exact motion_identity
  · next h =>
    -- the axis is long enough to be brought to unit length
    have hlong : (lengthTolerance : ℝ) ≤ r.axis.norm := by
      by_contra hshort
      exact h (by simp [not_le.1 hshort])
    have hpos : 0 < r.axis.norm := lt_of_lt_of_le (by unfold lengthTolerance; norm_num) hlong
    have hsq : r.axis.norm ^ 2 = r.axis.dot r.axis := Real.sq_sqrt (Real.sqrt_pos.1 hpos).le
    refine .rotation ?_ _
    have hunit : (r.axis.divided r.axis.norm).dot (r.axis.divided r.axis.norm) =
        r.axis.dot r.axis / r.axis.norm ^ 2 := by
      simp only [Vec3.divided, Vec3.map, Vec3.dot]
      ring
    rw [hunit, hsq, div_self]
    exact hsq ▸ (pow_pos hpos 2).ne'

/-- The placement of an entity is a turn and then a shift. -/
theorem motion_ofPlacement (position : Vec3 ℝ) (rotation : AxisAngle ℝ) :
    Motion (ofPlacement position rotation) :=
  .comp (.translation position) (motion_ofAxisAngle rotation)

theorem rigid_ofPlacement (position : Vec3 ℝ) (rotation : AxisAngle ℝ) :
    (ofPlacement position rotation).Rigid :=
  (motion_ofPlacement position rotation).rigid

end Transform

end SceneGuard
