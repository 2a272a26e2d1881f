import SceneGuard.Proofs.Geometry.Gaps

/-!
# Symmetry of the box test

The test looks at the second box from the first one. Looked at from the second, the turn between the
two is transposed and the way leads back, so what is far along a direction stays so along the same
direction (`farAlong_swap`). Main statements:

* `separatedBySecond_swap`, `separatedByFirst_swap` — the axes of one box are tested first or
  second;
* `separatedByProducts_swap` — a product of two axes is the same direction in either order;
* `Obb.intersects_comm` — so it does not matter which box is asked.
-/

namespace SceneGuard

open Matrix

theorem Vec3.any_iff {β : Type} {p : β → Bool} {v : Vec3 β} :
    v.any p = true ↔ ∃ i, p (v.along i) = true := by
  constructor
  · intro h
    obtain (hx | hy) | hz : (p v.x = true ∨ p v.y = true) ∨ p v.z = true := by simpa [any] using h
    exacts [⟨.x, hx⟩, ⟨.y, hy⟩, ⟨.z, hz⟩]
  · rintro ⟨i, hi⟩
    cases i <;> simp_all [any, along]

namespace Obb

namespace Relative

variable {R : Matrix (Fin 3) (Fin 3) ℝ} {L : Fin 3 → ℝ} {a b t back : Vec3 ℝ} {epsilon : ℝ}

/-- A direction and its opposite tell the same. -/
theorem farAlong_neg : FarAlong R a b t epsilon (-L) ↔ FarAlong R a b t epsilon L := by
  unfold FarAlong
  simp only [mulVec_neg, dotProduct_neg, Pi.neg_apply, abs_neg]

/-- What is far along a direction is far along it as the other box sees that direction,
on the way back. -/
theorem farAlong_swap (hR : IsRotation R) (hback : back.coords = -(Rᵀ *ᵥ t.coords)) :
    FarAlong Rᵀ b a back epsilon (Rᵀ *ᵥ L) ↔ FarAlong R a b t epsilon L := by
  have hdirection : Rᵀᵀ *ᵥ (Rᵀ *ᵥ L) = L := by
    rw [transpose_transpose, mulVec_mulVec, hR.mul_transpose, one_mulVec]
  have hway : |back.coords ⬝ᵥ (Rᵀ *ᵥ L)| = |t.coords ⬝ᵥ L| := by
    rw [hback, neg_dotProduct, abs_neg, hR.transpose.dot_mulVec]
  unfold FarAlong
  rw [hdirection, hway, add_comm (b.coords ⬝ᵥ _)]

/-- The axes of the one box come second when the boxes change places. -/
theorem separatedBySecond_swap (hR : IsRotation R) (hback : back.coords = -(Rᵀ *ᵥ t.coords)) :
    (turned b a back Rᵀ).separatedBySecond epsilon = (turned a b t R).separatedByFirst epsilon := by
  rw [Bool.eq_iff_iff, separatedBySecond_iff hR.transpose, separatedByFirst_iff]
  exact exists_congr fun i => farAlong_swap hR hback

theorem separatedByFirst_swap (hR : IsRotation R) (hback : back.coords = -(Rᵀ *ᵥ t.coords)) :
    (turned b a back Rᵀ).separatedByFirst epsilon = (turned a b t R).separatedBySecond epsilon := by
  rw [Bool.eq_iff_iff, separatedBySecond_iff hR, separatedByFirst_iff]
  refine exists_congr fun i => ?_
  -- an axis of the second box is a column of the turn, and the turn takes it back to itself
  have haxis : Rᵀ *ᵥ (R *ᵥ Pi.single i.index 1) = Pi.single i.index 1 := by
    rw [mulVec_mulVec, hR.orthogonal, one_mulVec]
  rw [← farAlong_swap hR hback, haxis]

/-- The product of two axes, seen from the other box, points the opposite way. -/
theorem mulVec_crossAxis_swap (hR : IsRotation R) (i j : Fin 3) :
    Rᵀ *ᵥ crossAxis R i j = -crossAxis Rᵀ j i := by
  rw [mulVec_crossAxis hR, ← cross_anticomm]
  rfl

/-- The nine products are the same, with the axes in the other order. -/
theorem separatedByProducts_swap (hR : IsRotation R) (hback : back.coords = -(Rᵀ *ᵥ t.coords)) :
    (turned b a back Rᵀ).separatedByProducts epsilon =
      (turned a b t R).separatedByProducts epsilon := by
  rw [Bool.eq_iff_iff, separatedByProducts_iff hR.transpose,
    separatedByProducts_iff hR, exists_comm]
  refine exists_congr fun i => exists_congr fun j => ?_
  rw [← farAlong_swap hR hback, mulVec_crossAxis_swap hR, farAlong_neg]

/-- Axes count as parallel when one of the nine cosines is near to one. -/
theorem parallel_iff :
    (turned a b t R).parallel = true ↔ ∃ i j : Axis, parallelCosine < |R i.index j.index| := by
  refine Vec3.any_iff.trans (exists_congr fun i => Vec3.any_iff.trans (exists_congr fun j => ?_))
  cases i <;> cases j <;> exact decide_eq_true_iff

/-- Which does not depend on the order of the boxes. -/
theorem parallel_swap : (turned b a back Rᵀ).parallel = (turned a b t R).parallel := by
  rw [Bool.eq_iff_iff, parallel_iff, parallel_iff, exists_comm]
  rfl

end Relative

end Obb

/-- Regions overlap each other or not at all. -/
theorem Extents.overlaps_comm (e f : Extents ℝ) (epsilon : ℝ) :
    e.overlaps f epsilon = f.overlaps e epsilon := by
  rw [Bool.eq_iff_iff, overlaps_iff, overlaps_iff]
  exact forall_congr' fun i => and_comm

namespace Obb

variable {s t : Transform ℝ}

/-- Each of two boxes placed rigidly sees the other: the turn is transposed,
and the way leads back. -/
theorem relative_transform_swap (hs : s.Rigid) (ht : t.Rigid) (a b : Obb ℝ) :
    ∃ (R : Matrix (Fin 3) (Fin 3) ℝ) (way back : Vec3 ℝ), IsRotation R ∧
      back.coords = -(Rᵀ *ᵥ way.coords) ∧
      (a.transform s).relative (b.transform t) = .turned a.localHalf b.localHalf way R ∧
      (b.transform t).relative (a.transform s) = .turned b.localHalf a.localHalf back Rᵀ := by
  obtain ⟨way, hway, hfirst⟩ := relative_transform hs ht a b
  obtain ⟨back, hback, hsecond⟩ := relative_transform ht hs b a
  have hturn : (s.turnᵀ * t.turn)ᵀ = t.turnᵀ * s.turn := by
    rw [transpose_mul, transpose_transpose]
  refine ⟨s.turnᵀ * t.turn, way, back, hs.rotation.transpose.mul ht.rotation, ?_, hfirst, ?_⟩
  · calc back.coords = t.turnᵀ *ᵥ ((a.transform s).center - (b.transform t).center).coords := hback
      _ = -(t.turnᵀ *ᵥ ((b.transform t).center - (a.transform s).center).coords) := by
        rw [← mulVec_neg, Vec3.coords_sub, Vec3.coords_sub, neg_sub]
      _ = -((s.turnᵀ * t.turn)ᵀ *ᵥ way.coords) := by
        rw [hturn, hway, mulVec_mulVec, Matrix.mul_assoc, hs.rotation.mul_transpose, Matrix.mul_one]
  · rw [hturn]
    exact hsecond

/--
**The box test is symmetric.** Two boxes of any description, placed rigidly, are found to overlap by
both or by neither of them, at every tolerance.
-/
theorem intersects_comm (hs : s.Rigid) (ht : t.Rigid) (a b : Obb ℝ) (epsilon : ℝ) :
    (a.transform s).intersects (b.transform t) epsilon =
      (b.transform t).intersects (a.transform s) epsilon := by
  obtain ⟨R, way, back, hR, hback, hfirst, hsecond⟩ := relative_transform_swap hs ht a b
  have hbounds : (a.transform s).bounds.intersects (b.transform t).bounds epsilon =
      (b.transform t).bounds.intersects (a.transform s).bounds
        epsilon := Extents.overlaps_comm _ _ _
  unfold intersects
  rw [hbounds]
  simp only [hfirst, hsecond, Relative.separatedByFirst_swap hR hback,
    Relative.separatedBySecond_swap hR hback, Relative.separatedByProducts_swap hR hback,
    Relative.parallel_swap (a := a.localHalf) (t := way)]
  rw [Bool.and_comm (!Relative.separatedBySecond _ _)]

/-- A cube about the origin, unplaced. -/
noncomputable def cube : Obb ℝ := new (.splat (-1)) (.splat 1) (.splat 1)

/-- The cube of the example has the origin inside. -/
theorem inside_cube : cube.bounds.shape.extents.Inside (.splat 0) := by
  refine LocalBox.inside_extents.2 fun i => ?_
  fin_cases i <;>
    norm_num [cube, new, ofAabb, update, transform, Aabb.update, Aabb.new, Aabb.ofShape,
      Aabb.transform, LocalBox.low, LocalBox.high, Vec3.coords, Vec3.splat]

/-- A cube turned by a radian overlaps the straight one around the same center,
and is overlapped by it. -/
theorem intersects_comm_turned :
    Transform.Rigid .identity ∧ (Transform.turnedAt 0).Rigid ∧
      (cube.transform .identity).intersects (cube.transform (.turnedAt 0)) (0 : ℝ) = true ∧
      (cube.transform (.turnedAt 0)).intersects (cube.transform .identity) (0 : ℝ) = true := by
  have hstraight := Transform.rigid_identity
  have hturned := (Transform.motion_turnedAt 0).rigid
  have hcenter : (Transform.turnedAt 0).point (.splat 0) = Transform.identity.point (.splat 0) := by
    rw [Transform.point_identity, Transform.point_turnedAt]
    simp [Vec3.splat]
  have hfirst : (cube.transform .identity).intersects (cube.transform (.turnedAt 0))
      (0 : ℝ) = true :=
    intersects_of_interior hstraight hturned ((interior_place hstraight).2 ⟨_, inside_cube, rfl⟩)
      ((interior_place hturned).2 ⟨_, inside_cube, hcenter⟩) le_rfl
  exact ⟨hstraight, hturned, hfirst, (intersects_comm hturned hstraight cube cube 0).trans hfirst⟩

end Obb

end SceneGuard
