import SceneGuard.Proofs.Geometry.Rigid

/-!
# Inverses of affine transforms

Over the reals an affine transform has an inverse exactly when its cofactors give one. Main
statements:

* `comp_adjugate`, `adjugate_comp` — a transform and its cofactors compose to the determinant;
* `det_eq_turn` — which is that of the turning and stretching part alone;
* `inverse?_eq_some_iff` — so the inverse that is computed undoes the transform, and it is there
  whenever something does.
-/

namespace SceneGuard

open Matrix

namespace Transform

variable {t u v : Transform ℝ}

/-- Each of the two takes back what the other does. -/
structure Undoes (u t : Transform ℝ) : Prop where
  left : u.comp t = identity
  right : t.comp u = identity

theorem identity_comp (t : Transform ℝ) : identity.comp t = t := by
  ext <;> simp [Transform.comp, image, identity, ofColumns, Vec3.unit, Vec3.splat]

/-- Two transforms that undo the same one are the same. -/
theorem Undoes.unique (hu : u.Undoes t) (hv : v.Undoes t) : u = v := by
  calc u = (v.comp t).comp u := by rw [hv.left, identity_comp]
    _ = v.comp (t.comp u) := comp_assoc v t u
    _ = v := by rw [hu.right, comp_identity]

theorem Undoes.symm (h : u.Undoes t) : t.Undoes u := ⟨h.right, h.left⟩

/-- What undoes an affine transform is affine. -/
theorem Undoes.affine (h : u.Undoes t) (ht : t.Affine) : u.Affine := by
  -- the bottom row of the product is that of the second factor
  have hrow : ∀ c : Vec4 ℝ, c.w = (t.image c).w := fun c => by
    simp [image, ht.xAxis, ht.yAxis, ht.zAxis, ht.origin]
  exact ⟨(hrow _).trans (congrArg (·.xAxis.w) h.right),
    (hrow _).trans (congrArg (·.yAxis.w) h.right), (hrow _).trans (congrArg (·.zAxis.w) h.right),
    (hrow _).trans (congrArg (·.origin.w) h.right)⟩

/-- What undoes a transform takes each point back to where it was. -/
theorem Undoes.point_point (h : u.Undoes t) (ht : t.Affine) (p : Vec3 ℝ) :
    u.point (t.point p) = p := by
  rw [← point_comp u ht, h.left, point_identity]

theorem Undoes.turn_mul (h : u.Undoes t) (ht : t.Affine) : t.turn * u.turn = 1 := by
  rw [← turn_comp t (h.affine ht), h.right]
  exact turn_translation _

/-!
## Cofactors

Both products with the cofactors are sixteen polynomial identities. The determinant needs the last
row only as far as it is that of an affine map.
-/

/-- A transform and its cofactors make a multiple of the identity. -/
theorem comp_adjugate (t : Transform ℝ) : t.comp t.adjugate = identity.map (· * t.det) := by
  ext <;>
    simp [Transform.comp, image, adjugate, det, Vec3.triple, Transform.map, Vec4.map,
      identity, ofColumns, Vec3.unit, Vec3.splat] <;> ring

theorem adjugate_comp (t : Transform ℝ) : t.adjugate.comp t = identity.map (· * t.det) := by
  ext <;>
    simp [Transform.comp, image, adjugate, det, Vec3.triple, Transform.map, Vec4.map,
      identity, ofColumns, Vec3.unit, Vec3.splat] <;> ring

/-- The determinant of an affine transform is that of its turn. -/
theorem det_eq_turn (ht : t.Affine) : t.det = t.turn.det := by
  rw [det_fin_three]
  simp [det, adjugate, Vec3.triple, turn, ht.xAxis, ht.yAxis, ht.zAxis, ht.origin]
  ring

/-- A factor may be taken out of the first transform. -/
theorem map_comp (t u : Transform ℝ) (k : ℝ) : (t.map (· * k)).comp u = (t.comp u).map (· * k) := by
  ext <;> simp [Transform.comp, image, Transform.map, Vec4.map] <;> ring

theorem comp_map (t u : Transform ℝ) (k : ℝ) : t.comp (u.map (· * k)) = (t.comp u).map (· * k) := by
  ext <;> simp [Transform.comp, image, Transform.map, Vec4.map] <;> ring

/-- The multiple of the identity is brought back by a division. -/
theorem map_det_div {d : ℝ} (hd : d ≠ 0) :
    ((identity : Transform ℝ).map (· * d)).map (· * (1 / d)) = identity := by
  have hentry : ∀ x : ℝ, x * d * (1 / d) = x := fun x => by field_simp
  ext <;> exact hentry _

/-!
## The inverse that is computed

The code refuses a determinant of zero and no other. It is zero exactly where nothing undoes the
transform, so no inverse is missed.
-/

/-- With a determinant other than zero the inverse is given by the cofactors. -/
theorem inverse?_of_det (h : t.det ≠ 0) : t.inverse? = some (t.adjugate.map (· * (1 / t.det))) := by
  have hdet : (t.det == 0) = false := decide_eq_false h
  unfold inverse?
  simp only [hdet, Bool.false_eq_true, if_false]

/-- There is no inverse where the determinant is zero, and only there. -/
theorem inverse?_eq_none_iff : t.inverse? = none ↔ t.det = 0 := by
  constructor
  · intro h
    by_contra hdet
    rw [inverse?_of_det hdet] at h
    cases h
  · intro h
    have hdet : (t.det == 0) = true := decide_eq_true h
    unfold inverse?
    simp only [hdet, if_true]

theorem undoes_of_det (h : t.det ≠ 0) : (t.adjugate.map (· * (1 / t.det))).Undoes t where
  left := by rw [map_comp, adjugate_comp, map_det_div h]
  right := by rw [comp_map, comp_adjugate, map_det_div h]

/-- A transform that can be undone has a determinant other than zero. -/
theorem Undoes.det_ne_zero (h : u.Undoes t) (ht : t.Affine) : t.det ≠ 0 := by
  intro hdet
  have hone := congrArg Matrix.det (h.turn_mul ht)
  rw [det_mul, ← det_eq_turn ht, hdet, zero_mul, det_one] at hone
  exact zero_ne_one hone

/-- **The inverse is the one transform that undoes an affine one**, and it is there where there is
such. -/
theorem inverse?_eq_some_iff (ht : t.Affine) : t.inverse? = some u ↔ u.Undoes t := by
  constructor
  · intro h
    have hdet : t.det ≠ 0 := fun hdet => by
      rw [inverse?_eq_none_iff.2 hdet] at h
      cases h
    rw [inverse?_of_det hdet] at h
    exact Option.some.inj h ▸ undoes_of_det hdet
  · intro h
    have hdet := h.det_ne_zero ht
    rw [inverse?_of_det hdet, (undoes_of_det hdet).unique h]

end Transform

end SceneGuard
