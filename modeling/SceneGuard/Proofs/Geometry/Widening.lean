import Mathlib.Analysis.SpecialFunctions.Trigonometric.Inverse
import SceneGuard.Proofs.Geometry.Contact
import SceneGuard.Proofs.Geometry.Symmetry

/-!
# Wider boxes

Where it is placed, a box is at least as wide as another about the same center if it reaches as far
along its own axes, and the box around it as far along those of the world (`LocalBox.Widens`). Of a
box that is inside out the second may fail, since the box around it is not. Main statements:

* `LocalBox.widens_of_half_le` — for other boxes the half extents are enough;
* `Obb.intersects_mono` — wider boxes overlap what narrower ones do, also at a greater tolerance;
* `Obb.meetsTriangle_mono` — and they meet every triangle that these do.
-/

namespace SceneGuard

open Matrix

/-!
## Directions

Each test compares a distance with a reach, so it is monotone in the reach. What separates the wider
box separates the narrower one.
-/

section Directions

variable {R : Matrix (Fin 3) (Fin 3) ℝ} {L : Fin 3 → ℝ} {a a' b b' t half half' : Vec3 ℝ}
  {epsilon epsilon' : ℝ}

/-- What is far along a direction is so for narrower boxes and at a smaller tolerance. -/
theorem Obb.Relative.FarAlong.mono (ha : ∀ i, a.coords i ≤ a'.coords i)
    (hb : ∀ i, b.coords i ≤ b'.coords i) (hepsilon : epsilon ≤ epsilon')
    (h : FarAlong R a' b' t epsilon' L) : FarAlong R a b t epsilon L := by
  have hfirst : (a.coords ⬝ᵥ fun i => |L i|) ≤ a'.coords ⬝ᵥ fun i => |L i| :=
    dotProduct_le_dotProduct_of_nonneg_right ha fun _ => abs_nonneg _
  have hsecond : (b.coords ⬝ᵥ fun j => |(Rᵀ *ᵥ L) j|) ≤ b'.coords ⬝ᵥ fun j => |(Rᵀ *ᵥ L) j| :=
    dotProduct_le_dotProduct_of_nonneg_right hb fun _ => abs_nonneg _
  unfold FarAlong at h ⊢
  linarith

namespace Triangle

variable {tri : Triangle ℝ} {center : Vec3 ℝ}

/-- A wider box reaches farther along every direction. -/
theorem reach_mono (h : ∀ i, half.coords i ≤ half'.coords i) (d : Vec3 ℝ) :
    reach half d ≤ reach half' d :=
  dotProduct_le_dotProduct_of_nonneg_right h fun _ => abs_nonneg _

/-- What misses a longer interval misses a shorter one. -/
theorem misses_mono {p q r radius radius' : ℝ} (hradius : radius ≤ radius')
    (h : misses p q r radius' = true) : misses p q r radius = true := by
  rw [misses_iff] at h ⊢
  rcases h with ⟨hp, hq, hr⟩ | ⟨hp, hq, hr⟩
  · exact .inl ⟨hradius.trans_lt hp, hradius.trans_lt hq, hradius.trans_lt hr⟩
  · have hback := neg_le_neg hradius
    exact .inr ⟨hp.trans_le hback, hq.trans_le hback, hr.trans_le hback⟩

/-- So an edge that separates from the wider box separates from the narrower one. -/
theorem separatedByEdges_mono (h : ∀ i, half.coords i ≤ half'.coords i)
    (hseparated : separatedByEdges half' tri = true) : separatedByEdges half tri = true := by
  obtain ⟨edge, hedge, hseparated⟩ := List.any_eq_true.1 hseparated
  obtain ⟨i, hseparated⟩ := Axis.any_all.1 hseparated
  refine List.any_eq_true.2 ⟨edge, hedge, Axis.any_all.2 ⟨i, ?_⟩⟩
  rw [separatedAlong_eq] at hseparated ⊢
  exact misses_mono (reach_mono h _) hseparated

theorem separatedByFaces_mono (h : ∀ i, half.coords i ≤ half'.coords i)
    (hseparated : separatedByFaces half' tri = true) : separatedByFaces half tri = true := by
  obtain ⟨i, hseparated⟩ := separatedByFaces_iff.1 hseparated
  exact separatedByFaces_iff.2 ⟨i, misses_mono (h i.index) hseparated⟩

/-- A triangle that meets a box meets every wider one about the same center. -/
theorem meetsBox_mono (h : ∀ i, half.coords i ≤ half'.coords i)
    (hmeets : tri.meetsBox center half = true) : tri.meetsBox center half' = true := by
  unfold meetsBox meetsCentered at hmeets ⊢
  simp only [Bool.and_eq_true, Bool.not_eq_true', ← Bool.not_eq_true] at hmeets ⊢
  obtain ⟨⟨hedges, hfaces⟩, hplane⟩ := hmeets
  refine ⟨⟨mt (separatedByEdges_mono h) hedges, mt (separatedByFaces_mono h) hfaces⟩, ?_⟩
  exact planeMeets_iff.2 ((planeMeets_iff.1 hplane).trans (reach_mono h _))

end Triangle

end Directions

/-!
## Wider shapes

A wider shape has the same center and reaches further along its own axes. The box around the placed
shape is asked for separately, since it follows only where no shape is inside out.
-/

namespace LocalBox

variable {a a' : LocalBox ℝ} {t : Transform ℝ}

/--
Where it is placed, the first box is at least as wide as the second, about the same center, and so
is the box around it.
-/
structure Widens (a' a : LocalBox ℝ) (t : Transform ℝ) : Prop where
  center : a'.extents.center = a.extents.center
  half_le : ∀ i, a.extents.half.coords i ≤ a'.extents.half.coords i
  min_le : ∀ i, (a'.extents.image t).min.coords i ≤ (a.extents.image t).min.coords i
  le_max : ∀ i, (a.extents.image t).max.coords i ≤ (a'.extents.image t).max.coords i

theorem Widens.refl (a : LocalBox ℝ) (t : Transform ℝ) : a.Widens a t :=
  ⟨rfl, fun _ => le_rfl, fun _ => le_rfl, fun _ => le_rfl⟩

/-- About a box that is not inside out, greater half extents make a wider one. -/
theorem widens_of_half_le (ha : ∀ i, 0 ≤ a.extents.half.coords i)
    (hcenter : a'.extents.center = a.extents.center)
    (hhalf : ∀ i, a.extents.half.coords i ≤ a'.extents.half.coords i) (t : Transform ℝ) :
    a'.Widens a t := by
  -- the corners of the one box belong to the other, and with them the ends of the box around them
  have hcorner : ∀ c ∈ a.extents.corners, (a'.extents.image t).contains (t.point c) = true := by
    refine fun c hc => Extents.contains_image (Extents.contains_iff.2 fun i => ?_)
    have hreach := ha i
    have hwide := hhalf i
    rw [← Extents.center_sub_half, ← Extents.center_add_half, hcenter]
    rcases Extents.coords_of_mem_corners hc i with h | h
    · rw [h, ← Extents.center_sub_half]
      constructor <;> linarith
    · rw [h, ← Extents.center_add_half]
      constructor <;> linarith
  refine ⟨hcenter, hhalf, fun i => ?_, fun i => ?_⟩
  · obtain ⟨c, hc, hmin⟩ := (a.extents.exists_image t i).1
    exact hmin ▸ (Extents.contains_iff.1 (hcorner c hc) i).1
  · obtain ⟨c, hc, hmax⟩ := (a.extents.exists_image t i).2
    exact hmax ▸ (Extents.contains_iff.1 (hcorner c hc) i).2

/-- A wider box, placed, has the same center. -/
theorem Widens.center_place (h : a'.Widens a t) :
    (Obb.place a' t).center = (Obb.place a t).center :=
  congrArg t.point h.center

end LocalBox

theorem Transform.Rigid.exists_undoes {t : Transform ℝ} (ht : t.Rigid) :
    ∃ u : Transform ℝ, u.Undoes t := by
  have hdet : t.det ≠ 0 := by
    rw [Transform.det_eq_turn ht.affine, ht.rotation.det]
    exact one_ne_zero
  exact ⟨_, Transform.undoes_of_det hdet⟩

/-!
## Wider tests

Both tests of a placed box are monotone: against boxes also in the tolerance, against triangles in
the box alone.
-/

/-- Wider regions overlap where narrower ones do. -/
theorem Extents.overlaps_mono {e e' f f' : Extents ℝ} {epsilon epsilon' : ℝ}
    (hemin : ∀ i, e'.min.coords i ≤ e.min.coords i) (hemax : ∀ i, e.max.coords i ≤ e'.max.coords i)
    (hfmin : ∀ i, f'.min.coords i ≤ f.min.coords i) (hfmax : ∀ i, f.max.coords i ≤ f'.max.coords i)
    (hepsilon : epsilon ≤ epsilon') (h : e.overlaps f epsilon = true) :
    e'.overlaps f' epsilon' = true := by
  refine overlaps_iff.2 fun i => ?_
  obtain ⟨hef, hfe⟩ := overlaps_iff.1 h i
  constructor
  · calc e'.min.coords i ≤ e.min.coords i := hemin i
      _ < f.max.coords i + epsilon := hef
      _ ≤ f'.max.coords i + epsilon' := add_le_add (hfmax i) hepsilon
  · calc f'.min.coords i ≤ f.min.coords i := hfmin i
      _ < e.max.coords i + epsilon := hfe
      _ ≤ e'.max.coords i + epsilon' := add_le_add (hemax i) hepsilon

namespace Obb

variable {a a' b b' : LocalBox ℝ} {s t : Transform ℝ} {epsilon epsilon' : ℝ} {tri : Triangle ℝ}

/-- **The box test is monotone.** Wider boxes overlap where narrower ones do, also at a greater
tolerance. -/
theorem intersects_mono (hs : s.Rigid) (ht : t.Rigid) (ha : a'.Widens a s) (hb : b'.Widens b t)
    (hepsilon : epsilon ≤ epsilon') (h : (place a s).intersects (place b t) epsilon = true) :
    (place a' s).intersects (place b' t) epsilon' = true := by
  have hR : IsRotation (s.turnᵀ * t.turn) := hs.rotation.transpose.mul ht.rotation
  obtain ⟨way, hway, hnarrow⟩ := relative_place hs ht a b
  obtain ⟨way', hway', hwide⟩ := relative_place hs ht a' b'
  -- the centers are where they were, so the way between them is the same
  obtain rfl : way = way' :=
    Vec3.coords_injective (by rw [hway, hway', ha.center_place, hb.center_place])
  have hfar : ∀ {L}, Relative.FarAlong (s.turnᵀ * t.turn) a'.extents.half b'.extents.half
      way epsilon' L →
      Relative.FarAlong (s.turnᵀ * t.turn) a.extents.half b.extents.half way epsilon L :=
    .mono ha.half_le hb.half_le hepsilon
  unfold intersects at h ⊢
  rw [hnarrow] at h
  rw [hwide]
  simp only [Bool.and_eq_true, Bool.or_eq_true, Bool.not_eq_true', ← Bool.not_eq_true] at h ⊢
  obtain ⟨hbounds, ⟨hfirst, hsecond⟩, hproducts⟩ := h
  refine ⟨?bounds, ⟨?first, ?second⟩, hproducts.imp id ?products⟩
  case bounds =>
    exact Extents.overlaps_mono ha.min_le ha.le_max hb.min_le hb.le_max hepsilon hbounds
  case first =>
    refine mt (fun hwide => ?_) hfirst
    exact Relative.separatedByFirst_iff.2
      ((Relative.separatedByFirst_iff.1 hwide).imp fun _ => hfar)
  case second =>
    refine mt (fun hwide => ?_) hsecond
    exact (Relative.separatedBySecond_iff hR).2
      (((Relative.separatedBySecond_iff hR).1 hwide).imp fun _ => hfar)
  case products =>
    refine mt fun hwide => ?_
    obtain ⟨i, j, hproduct⟩ := (Relative.separatedByProducts_iff hR).1 hwide
    exact (Relative.separatedByProducts_iff hR).2 ⟨i, j, hfar hproduct⟩

/-- **The triangle test is monotone.** A wider box meets every triangle that a narrower one does. -/
theorem meetsTriangle_mono (ht : t.Rigid) (ha : a'.Widens a t)
    (h : (place a t).meetsTriangle tri = true) : (place a' t).meetsTriangle tri = true := by
  obtain ⟨u, hu⟩ := ht.exists_undoes
  rw [meetsTriangle_of_undoes ht.affine hu] at h ⊢
  rw [ha.center]
  exact Triangle.meetsBox_mono ha.half_le h

end Obb

/-!
## Boxes turned alike

Boxes with the same turn are compared by the boxes around them and along three axes, and in no other
way.
-/

/-- Between boxes that are turned alike, an axis compares one coordinate of the way. -/
theorem Obb.Relative.farAlong_one {a b t : Vec3 ℝ} {epsilon : ℝ} {i : Fin 3} :
    FarAlong 1 a b t epsilon (Pi.single i 1) ↔ a.coords i + b.coords i + epsilon ≤
      |t.coords i| := by
  have habs : (fun j => |(Pi.single i 1 : Fin 3 → ℝ) j|) = Pi.single i 1 := by
    funext j
    by_cases hj : j = i <;> simp [hj]
  unfold FarAlong
  rw [transpose_one, one_mulVec, habs, dotProduct_single, dotProduct_single, dotProduct_single,
    mul_one, mul_one, mul_one]

/--
Boxes that are turned alike overlap when the boxes around them do, and the first one sees the center
of the second near enough along each of its axes.
-/
theorem Obb.intersects_of_aligned {a b : LocalBox ℝ} {s t : Transform ℝ} {epsilon : ℝ} {q : Vec3 ℝ}
    (hs : s.Rigid) (ht : t.Rigid) (hturn : t.turn = s.turn)
    (hbounds : (a.extents.image s).overlaps (b.extents.image t) epsilon = true)
    (hq : s.point q = t.point b.extents.center)
    (hnear : ∀ i, |q.coords i - a.extents.center.coords i| <
      a.extents.half.coords i + b.extents.half.coords i + epsilon) :
    (place a s).intersects (place b t) epsilon = true := by
  obtain ⟨way, hway, hrelative⟩ := relative_place hs ht a b
  rw [hturn, hs.rotation.orthogonal] at hrelative
  have hseen : way.coords = q.coords - a.extents.center.coords := by
    calc way.coords = s.turnᵀ *ᵥ ((s.point q).coords - (s.point a.extents.center).coords) := by
          rw [hway, Vec3.coords_sub, hq]
          rfl
      _ = s.turnᵀ *ᵥ (s.turn *ᵥ (q.coords - a.extents.center.coords)) := by
          rw [Transform.coords_point, Transform.coords_point,
            add_sub_add_right_eq_sub, ← mulVec_sub]
      _ = q.coords - a.extents.center.coords := by
        rw [mulVec_mulVec, hs.rotation.orthogonal, one_mulVec]
  have hfar : ∀ i : Axis,
      ¬Relative.FarAlong 1 a.extents.half b.extents.half way epsilon (Pi.single i.index 1) := by
    intro i h
    have hle := Relative.farAlong_one.1 h
    rw [hseen] at hle
    exact not_le.2 (hnear i.index) hle
  -- with equal turns the axes of both boxes are the same three, so one fact serves both tests
  have hfirst : ¬(Relative.turned a.extents.half b.extents.half way 1).separatedByFirst
      epsilon = true := by
    rw [Relative.separatedByFirst_iff]
    exact not_exists.2 hfar
  have hsecond : ¬(Relative.turned a.extents.half b.extents.half way 1).separatedBySecond
      epsilon = true := by
    rw [Relative.separatedBySecond_iff .one]
    simp only [one_mulVec]
    exact not_exists.2 hfar
  -- and the products of edges are not tried, since an axis of one is one of the other
  have hparallel : (Relative.turned a.extents.half b.extents.half way 1).parallel = true := by
    refine Relative.parallel_iff.2 ⟨.x, .x, ?_⟩
    rw [one_apply_eq, abs_one]
    unfold parallelCosine
    norm_num
  unfold intersects
  rw [hrelative]
  dsimp only
  rw [Bool.eq_false_iff.2 hfirst, Bool.eq_false_iff.2 hsecond, hparallel]
  exact (Bool.and_true _).trans hbounds

/-!
## Boxes inside out

A border below zero can move the faces of a box past each other. Such a box has the half extents of
another, but the box around it is too small, and the wider query misses what the narrower one finds.
-/

/-- A turn about the upright axis that takes the first axis to four fifths
of it and three of the second. -/
noncomputable def AxisAngle.slanting : AxisAngle ℝ := ⟨.unit .z, Real.arcsin 0.6⟩

namespace Transform

theorem ofAxisAngle_slanting :
    ofAxisAngle .slanting = rotationAbout (.unit .z) (Real.arcsin 0.6) := by
  have hangle : (AxisAngle.slanting.angle == 0) = false :=
    decide_eq_false (mt Real.arcsin_eq_zero_iff.1 (by norm_num))
  have hnorm : AxisAngle.slanting.axis.norm = 1 := by
    simp [AxisAngle.slanting, Vec3.norm, Vec3.dot, Vec3.unit, Scalar.sqrt]
  have hlong : ¬(1 : ℝ) < lengthTolerance := by
    unfold lengthTolerance
    norm_num
  have hunit : AxisAngle.slanting.axis.divided 1 = .unit .z := by
    simp [AxisAngle.slanting, Vec3.divided, Vec3.map, Vec3.unit]
  unfold ofAxisAngle
  rw [hangle, hnorm, decide_eq_false hlong, hunit]
  rfl

/-- A place on the first axis, at a slant. -/
noncomputable def slantedAt (x : ℝ) : Transform ℝ := ofPlacement ⟨x, 0, 0⟩ .slanting

/-- The slant has a sine of three fifths and a cosine of four. -/
theorem slantedAt_eq (x : ℝ) : slantedAt x =
    ofColumns ⟨0.8, 0.6, 0⟩ ⟨-0.6, 0.8, 0⟩ ⟨0, 0, 1⟩ ⟨x, 0, 0⟩ := by
  have hsin : Real.sin (Real.arcsin 0.6) = 0.6 := Real.sin_arcsin (by norm_num) (by norm_num)
  have hcos : Real.cos (Real.arcsin 0.6) = 0.8 := by
    rw [Real.cos_arcsin, show (1 : ℝ) - 0.6 ^ 2 = 0.8 ^ 2 by norm_num]
    exact Real.sqrt_sq (by norm_num)
  unfold slantedAt ofPlacement
  rw [ofAxisAngle_slanting]
  ext <;>
    simp [comp, image, translation, rotationAbout, ofColumns, Vec3.unit, Vec3.splat, Scalar.sin,
      Scalar.cos, hsin, hcos]

/-- Where the slant takes a point, in coordinates. -/
theorem point_slantedAt (x : ℝ) (p : Vec3 ℝ) : (slantedAt x).point p =
    ⟨0.8 * p.x - 0.6 * p.y + x, 0.6 * p.x + 0.8 * p.y, p.z⟩ := by
  rw [slantedAt_eq]
  ext <;> simp [point, image, ofColumns, Vec4.xyz]
  ring

/-- It is a placement as an entity states it, and rigid. -/
theorem rigid_slantedAt (x : ℝ) : (slantedAt x).Rigid := rigid_ofPlacement _ _

end Transform

namespace Extents

variable {e : Extents ℝ} {c : Vec3 ℝ}

/-- The corners of a region about the origin, inside out or not,
are as far from the middle as it reaches. -/
theorem mem_corners_iff_abs (he : e.center = .splat 0) :
    c ∈ e.corners ↔ ∀ i, |c.coords i| = |e.half.coords i| := by
  refine mem_corners_iff.trans (forall_congr' fun i => ?_)
  have hzero : (Vec3.splat 0 : Vec3 ℝ).coords i = 0 := by fin_cases i <;> rfl
  rw [← center_sub_half, ← center_add_half, he, hzero, zero_sub, zero_add, abs_eq_abs]
  exact or_comm

end Extents

/-- Two cubes at a slant overlap at a distance that the tolerance allows for,
also when one is inside out. -/
theorem Obb.intersects_slanted {a b : LocalBox ℝ} (hacenter : a.extents.center = .splat 0)
    (hbcenter : b.extents.center = .splat 0) (ha : ∀ i, |a.extents.half.coords i| = 1 / 2)
    (hb : ∀ i, |b.extents.half.coords i| = 1 / 2) :
    (place a (.slantedAt 0)).intersects (place b (.slantedAt 11.2)) 10 = true := by
  -- the corner of each box that comes nearest to the other
  have hfirst : (⟨1 / 2, -1 / 2, 1 / 2⟩ : Vec3 ℝ) ∈ a.extents.corners :=
    (Extents.mem_corners_iff_abs hacenter).2 fun i => by
      rw [ha]
      fin_cases i <;> norm_num [Vec3.coords]
  have hsecond : (⟨-1 / 2, 1 / 2, 1 / 2⟩ : Vec3 ℝ) ∈ b.extents.corners :=
    (Extents.mem_corners_iff_abs hbcenter).2 fun i => by
      rw [hb]
      fin_cases i <;> norm_num [Vec3.coords]
  refine intersects_of_aligned (q := ⟨8.96, -6.72, 0⟩) (Transform.rigid_slantedAt _)
    (Transform.rigid_slantedAt _) ?turn ?bounds ?seen fun i => ?near
  case turn =>
    rw [Transform.slantedAt_eq, Transform.slantedAt_eq]
    rfl
  case bounds =>
    refine Extents.overlaps_iff.2 fun i => ?_
    obtain ⟨hmin, hmax⟩ := Extents.image_bounds hfirst (.slantedAt 0) i
    obtain ⟨hmin', hmax'⟩ := Extents.image_bounds hsecond (.slantedAt 11.2) i
    have hclose : |((Transform.slantedAt 0).point ⟨1 / 2, -1 / 2, 1 / 2⟩).coords i -
        ((Transform.slantedAt 11.2).point ⟨-1 / 2, 1 / 2, 1 / 2⟩).coords i| < 10 := by
      rw [Transform.point_slantedAt, Transform.point_slantedAt]
      fin_cases i <;> norm_num [Vec3.coords, abs_lt]
    obtain ⟨hback, hforth⟩ := abs_lt.1 hclose
    constructor <;> linarith
  case seen =>
    rw [hbcenter, Transform.point_slantedAt, Transform.point_slantedAt]
    norm_num [Vec3.splat]
  case near =>
    have hreach := neg_le_of_abs_le (ha i).le
    have hreach' := neg_le_of_abs_le (hb i).le
    have hshort :
        |(⟨8.96, -6.72, 0⟩ : Vec3 ℝ).coords i - (Vec3.splat 0 : Vec3 ℝ).coords i| < 9 := by
      fin_cases i <;> norm_num [Vec3.coords, Vec3.splat, abs_lt]
    rw [hacenter]
    linarith

/-- They do not when one of them is flat: half extents of nothing are
wider than those of a box inside out. -/
theorem Obb.not_intersects_slanted {a b : LocalBox ℝ} (hacenter : a.extents.center = .splat 0)
    (hbcenter : b.extents.center = .splat 0) (hflat : a.extents.half.coords 0 = 0)
    (ha : |a.extents.half.coords 1| = 1 / 2) (hb : ∀ i, |b.extents.half.coords i| = 1 / 2) :
    (place a (.slantedAt 0)).intersects (place b (.slantedAt 11.2)) 10 = false := by
  obtain ⟨c, hc, hmax⟩ := (a.extents.exists_image (.slantedAt 0) 0).2
  obtain ⟨d, hd, hmin⟩ := (b.extents.exists_image (.slantedAt 11.2) 0).1
  have hbounds : (a.extents.image (.slantedAt 0)).overlaps (b.extents.image (.slantedAt 11.2))
      10 = false := by
    refine Bool.eq_false_iff.2 fun hoverlaps => ?_
    have hlt := (Extents.overlaps_iff.1 hoverlaps 0).2
    rw [hmax, hmin, Transform.point_slantedAt, Transform.point_slantedAt] at hlt
    have hlt : 0.8 * d.coords 0 - 0.6 * d.coords 1 + 11.2 <
        0.8 * c.coords 0 - 0.6 * c.coords 1 + 0 + 10 := hlt
    have hc := (Extents.mem_corners_iff_abs hacenter).1 hc
    have hd := (Extents.mem_corners_iff_abs hbcenter).1 hd
    -- the flat box has no extent along its own first axis, which is where it loses its reach
    have hcx := abs_eq_zero.1 ((hc 0).trans (by rw [hflat, abs_zero]))
    have hcy := (abs_le.1 ((hc 1).trans ha).le).1
    have hdx := (abs_le.1 ((hd 0).trans (hb 0)).le).1
    have hdy := (abs_le.1 ((hd 1).trans (hb 1)).le).2
    norm_num at hlt
    linarith
  unfold intersects
  rw [show (place a (.slantedAt 0)).bounds.intersects (place b (.slantedAt 11.2)).bounds 10 =
    false from hbounds]
  rfl

end SceneGuard
