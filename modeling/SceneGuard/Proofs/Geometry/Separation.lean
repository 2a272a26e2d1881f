import Mathlib.LinearAlgebra.CrossProduct
import SceneGuard.Geometry.Obb
import SceneGuard.Proofs.Geometry.Rigid

/-!
# Soundness of the box test

Two boxes placed rigidly that have an interior point in common are found to intersect, at every
tolerance that is not negative (`intersects_of_interior`). A direction separates the boxes only if
the way between their centers, seen along it, is at least as long as both of them together; for a
common interior point it never is (`abs_way_lt`). The fifteen directions of the test are instances
(`Relative.separatedByFirst_iff`, `Relative.separatedBySecond_iff`,
`Relative.separatedByProducts_iff`).
-/

namespace SceneGuard

open Matrix

/-!
## Inside and interior

The interior leaves out all faces, as the strict test does: boxes that only touch have no common
interior point.
-/

/-- The point is in the region, and on none of its faces. -/
def Extents.Inside (e : Extents ℝ) (p : Vec3 ℝ) : Prop :=
  ∀ i, e.min.coords i < p.coords i ∧ p.coords i < e.max.coords i

/-- The point is in the placed box, and on none of its faces. -/
def Obb.Interior (b : Obb ℝ) (x : Vec3 ℝ) : Prop :=
  ∀ i, |(x - b.center).dot (b.axes.along i)| < b.half.along i

/-- The place of an axis among the coordinates. -/
def Axis.index : Axis → Fin 3
  | .x => 0
  | .y => 1
  | .z => 2

theorem Axis.index_surjective : Function.Surjective Axis.index := by
  intro i
  fin_cases i
  · exact ⟨.x, rfl⟩
  · exact ⟨.y, rfl⟩
  · exact ⟨.z, rfl⟩

/-- A test over all axes passes when it passes for one. -/
theorem Axis.any_all {p : Axis → Bool} : Axis.all.any p = true ↔ ∃ i, p i = true := by
  refine List.any_eq_true.trans (exists_congr fun i => and_iff_right ?_)
  cases i <;> decide

theorem Vec3.along_eq (v : Vec3 ℝ) (i : Axis) : v.along i = v.coords i.index := by
  cases i <;> rfl

theorem Vec3.coords_unit (i : Axis) : (Vec3.unit i : Vec3 ℝ).coords = Pi.single i.index 1 := by
  funext j
  cases i <;> fin_cases j <;> simp [Vec3.unit, Vec3.coords, Axis.index]

theorem Extents.coords_center (e : Extents ℝ) (i : Fin 3) :
    e.center.coords i = (e.min.coords i + e.max.coords i) * 0.5 := by
  fin_cases i <;> rfl

theorem Extents.coords_half (e : Extents ℝ) (i : Fin 3) :
    e.half.coords i = (e.max.coords i - e.min.coords i) * 0.5 := by
  fin_cases i <;> rfl

/-!
## Boxes placed rigidly

A rigid placement keeps the three axes at length one and square to each other, so the frame that the
code computes is the turned frame, with nothing rescaled.
-/

namespace Obb

variable {t : Transform ℝ} {shape : LocalBox ℝ} {x p : Vec3 ℝ}

/-- The axes of a box placed rigidly are where the placement turns them. -/
theorem placedAxis_of_rigid (ht : t.Rigid) (half : Vec3 ℝ) (i : Axis) :
    placedAxis t half i = (t.direction (.unit i), half.along i) := by
  have hdot : (t.direction (.unit i)).dot (t.direction (.unit i)) = 1 := by
    rw [Vec3.dot_eq, Transform.coords_direction, ht.rotation.dot_mulVec, Vec3.coords_unit]
    simp
  -- a rigid placement keeps the axis at length one, so nothing is rescaled
  have hnorm : (t.direction (.unit i)).norm = 1 := by
    unfold Vec3.norm
    rw [hdot]
    exact Real.sqrt_one
  have hlong : (Transform.lengthTolerance : ℝ) < 1 := by
    unfold Transform.lengthTolerance
    norm_num
  unfold placedAxis
  simp only [hnorm, if_pos hlong, Vec3.divided, Vec3.map, div_one, mul_one]

/-- A rigid placement turns the axes of a box along. -/
theorem axes_transform (ht : t.Rigid) (b : Obb ℝ) (i : Axis) :
    (b.transform t).axes.along i = t.direction (.unit i) := by
  show (Vec3.ofAxes _).along i = _
  rw [Vec3.along_ofAxes, placedAxis_of_rigid ht]

theorem half_transform (ht : t.Rigid) (b : Obb ℝ) : (b.transform t).half = b.localHalf := by
  unfold transform
  simp only [placedAxis_of_rigid ht, Vec3.ofAxes_along]

/-- A box that is placed from its description has its axes turned along. -/
theorem axes_place (ht : t.Rigid) (shape : LocalBox ℝ) (i : Axis) :
    (place shape t).axes.along i = t.direction (.unit i) :=
  axes_transform ht _ i

theorem half_place (ht : t.Rigid) (shape : LocalBox ℝ) :
    (place shape t).half = shape.extents.half :=
  half_transform ht _

/-- How far a point is from the center along an axis of the box. -/
theorem dot_axes_place (ht : t.Rigid) (shape : LocalBox ℝ) (p : Vec3 ℝ) (i : Axis) :
    (t.point p - (place shape t).center).dot ((place shape t).axes.along i) =
      p.coords i.index - shape.extents.center.coords i.index := by
  rw [axes_place ht, Vec3.dot_eq, Vec3.coords_sub, Transform.coords_direction, Vec3.coords_unit]
  show ((t.point p).coords - (t.point shape.extents.center).coords) ⬝ᵥ _ = _
  rw [Transform.coords_point, Transform.coords_point, add_sub_add_right_eq_sub, ← mulVec_sub,
    ht.rotation.dot_mulVec, dotProduct_single, mul_one]
  rfl

/-- Interior points are the images of the points inside the unplaced box. -/
theorem interior_place (ht : t.Rigid) :
    (place shape t).Interior x ↔ ∃ p, shape.extents.Inside p ∧ t.point p = x := by
  -- every point is the image of one, and distances from the center are those in the box's own frame
  have hpoint : ∀ p, (place shape t).Interior (t.point p) ↔ shape.extents.Inside p := by
    intro p
    unfold Interior Extents.Inside
    rw [Axis.index_surjective.forall]
    refine forall_congr' fun i => ?_
    rw [dot_axes_place ht, half_place ht, Vec3.along_eq, abs_lt]
    rw [Extents.coords_center, Extents.coords_half]
    constructor
    · rintro ⟨h₁, h₂⟩
      exact ⟨by linarith, by linarith⟩
    · rintro ⟨h₁, h₂⟩
      exact ⟨by linarith, by linarith⟩
  constructor
  · intro h
    obtain ⟨p, rfl⟩ := ht.exists_point x
    exact ⟨p, (hpoint p).1 h, rfl⟩
  · rintro ⟨p, hp, rfl⟩
    exact (hpoint p).2 hp

end Obb

/-!
## Enclosing boxes

An interior point of a placed box lies strictly inside the enclosing box: along each axis some
corner goes further down and some corner further up.
-/

theorem Vec3.coords_lower (p q : Vec3 ℝ) (i : Fin 3) :
    (p.lower q).coords i = min (p.coords i) (q.coords i) := by
  have hmin : ∀ a b : ℝ, Scalar.lower a b = min a b := fun a b => (min_def a b).symm
  fin_cases i <;> exact hmin _ _

theorem Vec3.coords_upper (p q : Vec3 ℝ) (i : Fin 3) :
    (p.upper q).coords i = max (p.coords i) (q.coords i) := by
  have hmax : ∀ a b : ℝ, Scalar.upper a b = max a b := fun a b => by
    rw [max_comm, max_def]
    rfl
  fin_cases i <;> exact hmax _ _

namespace Extents

variable {e : Extents ℝ} {p q : Vec3 ℝ}

/-- A point at one of the bounds along each axis is a corner. -/
theorem mem_corners {q : Vec3 ℝ} (hx : q.x = e.min.x ∨ q.x = e.max.x)
    (hy : q.y = e.min.y ∨ q.y = e.max.y) (hz : q.z = e.min.z ∨ q.z = e.max.z) : q ∈ e.corners := by
  obtain ⟨x, y, z⟩ := q
  rcases hx with rfl | rfl <;> rcases hy with rfl | rfl <;> rcases hz with rfl | rfl <;>
    simp [corners]

/-- In every direction some corner lies before a point inside. -/
theorem exists_corner_lt (h : e.Inside p) {g : Fin 3 → ℝ} (hg : g ≠ 0) :
    ∃ q ∈ e.corners, g ⬝ᵥ q.coords < g ⬝ᵥ p.coords := by
  have haxis : ∀ i, ∃ c, (c = e.min.coords i ∨ c = e.max.coords i) ∧ g i * c ≤ g i * p.coords i ∧
      (g i ≠ 0 → g i * c < g i * p.coords i) := by
    intro i
    obtain ⟨hmin, hmax⟩ := h i
    rcases lt_trichotomy (g i) 0 with hneg | hzero | hpos
    · have hlt := mul_lt_mul_of_neg_left hmax hneg
      exact ⟨_, .inr rfl, hlt.le, fun _ => hlt⟩
    · exact ⟨_, .inl rfl, by simp [hzero], fun hne => absurd hzero hne⟩
    · have hlt := mul_lt_mul_of_pos_left hmin hpos
      exact ⟨_, .inl rfl, hlt.le, fun _ => hlt⟩
  -- the sides chosen for the three axes make one corner
  choose c hc hle hlt using haxis
  obtain ⟨q, rfl⟩ := Vec3.coords_surjective c
  refine ⟨q, mem_corners (hc 0) (hc 1) (hc 2), ?_⟩
  obtain ⟨i, hi⟩ := Function.ne_iff.1 hg
  exact Finset.sum_lt_sum (fun i _ => hle i) ⟨i, Finset.mem_univ i, hlt i hi⟩

/-- In every direction some corner lies behind a point inside. -/
theorem exists_corner_gt (h : e.Inside p) {g : Fin 3 → ℝ} (hg : g ≠ 0) :
    ∃ q ∈ e.corners, g ⬝ᵥ p.coords < g ⬝ᵥ q.coords := by
  obtain ⟨q, hq, hlt⟩ := exists_corner_lt h (neg_ne_zero.2 hg)
  rw [neg_dotProduct, neg_dotProduct, neg_lt_neg_iff] at hlt
  exact ⟨q, hq, hlt⟩

/-- What each step of a fold has to both its arguments,
the result has to everything that went in. -/
theorem foldl_rel {β : Type} {op : β → β → β} {r : β → β → Prop} (hrefl : ∀ a, r a a)
    (htrans : ∀ a b c, r a b → r b c → r a c) (hleft : ∀ a b, r (op a b) a)
    (hright : ∀ a b, r (op a b) b) {a b : β} {bs : List β} (hb : b ∈ a :: bs) :
    r (bs.foldl op a) b := by
  induction bs generalizing a b with
  | nil =>
    obtain rfl := List.mem_singleton.1 hb
    exact hrefl b
  | cons c bs ih =>
    have hfirst : r (bs.foldl op (op a c)) (op a c) := ih List.mem_cons_self
    rcases List.mem_cons.1 hb with rfl | hb
    · exact htrans _ _ _ hfirst (hleft b c)
    · rcases List.mem_cons.1 hb with rfl | hb
      · exact htrans _ _ _ hfirst (hright a b)
      · exact ih (List.mem_cons_of_mem _ hb)

/-- The region around points holds every one of them. -/
theorem around_bounds {ps : List (Vec3 ℝ)} (hq : q ∈ ps) (i : Fin 3) :
    (e.around ps).min.coords i ≤ q.coords i ∧ q.coords i ≤ (e.around ps).max.coords i := by
  obtain ⟨p, ps, rfl⟩ := List.exists_cons_of_ne_nil (List.ne_nil_of_mem hq)
  constructor
  · refine foldl_rel (r := fun a b => a.coords i ≤ b.coords i) (fun a => le_rfl)
      (fun a b c => le_trans) (fun a b => ?_) (fun a b => ?_) hq
    · rw [Vec3.coords_lower]
      exact min_le_left _ _
    · rw [Vec3.coords_lower]
      exact min_le_right _ _
  · refine foldl_rel (r := fun a b => b.coords i ≤ a.coords i) (fun a => le_rfl)
      (fun a b c hab hbc => hbc.trans hab) (fun a b => ?_) (fun a b => ?_) hq
    · rw [Vec3.coords_upper]
      exact le_max_left _ _
    · rw [Vec3.coords_upper]
      exact le_max_right _ _

/-- The enclosing box of a box placed rigidly has the placed interior inside. -/
theorem inside_image {t : Transform ℝ} (ht : t.Rigid) (h : e.Inside p) :
    (e.image t).Inside (t.point p) := by
  intro i
  -- a row of a rotation has length one
  have hrow : t.turn i ≠ 0 := by
    intro hzero
    have hunit := congrFun (congrFun ht.rotation.mul_transpose i) i
    rw [one_apply_eq, mul_apply] at hunit
    simp [hzero] at hunit
  have hpoint : ∀ q, (t.point q).coords i = t.turn i ⬝ᵥ q.coords + t.origin.xyz.coords i :=
      fun q => by
    rw [Transform.coords_point]
    rfl
  have himage : ∀ q ∈ e.corners, (e.image t).min.coords i ≤ (t.point q).coords i ∧
      (t.point q).coords i ≤ (e.image t).max.coords i := fun q hq =>
    around_bounds (List.mem_map_of_mem hq) i
  obtain ⟨q, hq, hlt⟩ := exists_corner_lt h hrow
  obtain ⟨r, hr, hgt⟩ := exists_corner_gt h hrow
  have hqimage := (himage q hq).1
  have hrimage := (himage r hr).2
  rw [hpoint] at hqimage hrimage ⊢
  constructor <;> linarith

/-- Regions overlap when along every axis each begins before the other ends. -/
theorem overlaps_iff {f : Extents ℝ} {epsilon : ℝ} : e.overlaps f epsilon = true ↔
    ∀ i, e.min.coords i < f.max.coords i + epsilon ∧ f.min.coords i < e.max.coords i + epsilon := by
  simp [overlaps, Vec3.coords, Fin.forall_fin_succ, and_assoc]

/-- Regions with a common interior point overlap, at every tolerance that is not negative. -/
theorem overlaps_of_inside {f : Extents ℝ} {epsilon : ℝ} (hepsilon : 0 ≤ epsilon) (he : e.Inside p)
    (hf : f.Inside p) : e.overlaps f epsilon = true := by
  refine overlaps_iff.2 fun i => ?_
  obtain ⟨h₁, h₂⟩ := he i
  obtain ⟨h₃, h₄⟩ := hf i
  constructor <;> linarith

end Extents

/-!
## Separating directions

One inequality serves all fifteen directions: seen along any of them, the way between the centers of
boxes with a common interior point is shorter than both reaches together. Products of edges need
that the two axes are not parallel, or the direction is zero.
-/

section Directions

variable {R : Matrix (Fin 3) (Fin 3) ℝ} {α β a b L : Fin 3 → ℝ}

/-- Seen along a direction, a point of a box is no farther than the box reaches. -/
theorem abs_dotProduct_le (h : ∀ i, |α i| ≤ a i) (L : Fin 3 → ℝ) :
    |α ⬝ᵥ L| ≤ a ⬝ᵥ fun i => |L i| := by
  calc |α ⬝ᵥ L| ≤ ∑ i, |α i * L i| := Finset.abs_sum_le_sum_abs _ _
    _ ≤ ∑ i, a i * |L i| := by
      refine Finset.sum_le_sum fun i _ => ?_
      rw [abs_mul]
      exact mul_le_mul_of_nonneg_right (h i) (abs_nonneg _)

theorem abs_dotProduct_lt (h : ∀ i, |α i| < a i) (hL : L ≠ 0) : |α ⬝ᵥ L| < a ⬝ᵥ fun i => |L i| := by
  obtain ⟨i, hi⟩ := Function.ne_iff.1 hL
  calc |α ⬝ᵥ L| ≤ ∑ i, |α i * L i| := Finset.abs_sum_le_sum_abs _ _
    _ < ∑ i, a i * |L i| := by
      refine Finset.sum_lt_sum (fun j _ => ?_) ⟨i, Finset.mem_univ i, ?_⟩
      · rw [abs_mul]
        exact mul_le_mul_of_nonneg_right (h j).le (abs_nonneg _)
      · rw [abs_mul]
        exact mul_lt_mul_of_pos_right (h i) (abs_pos.2 hi)

/--
Between boxes with a common interior point, at `α` in the frame of the one and at `β` in the frame
of the other, the way is shorter than both boxes together, whatever direction it is seen along.
-/
theorem abs_way_lt (R : Matrix (Fin 3) (Fin 3) ℝ) (hα : ∀ i, |α i| < a i) (hβ : ∀ i, |β i| < b i)
    (hL : L ≠ 0) : |(α - R *ᵥ β) ⬝ᵥ L| < (a ⬝ᵥ fun i => |L i|) + b ⬝ᵥ fun j => |(Rᵀ *ᵥ L) j| := by
  have hway : (α - R *ᵥ β) ⬝ᵥ L = α ⬝ᵥ L - β ⬝ᵥ (Rᵀ *ᵥ L) := by
    rw [sub_dotProduct, mulVec_transpose, dotProduct_comm (R *ᵥ β), dotProduct_mulVec,
      dotProduct_comm (L ᵥ* R)]
  calc |(α - R *ᵥ β) ⬝ᵥ L| = |α ⬝ᵥ L - β ⬝ᵥ (Rᵀ *ᵥ L)| := by rw [hway]
    _ ≤ |α ⬝ᵥ L| + |β ⬝ᵥ (Rᵀ *ᵥ L)| := abs_sub _ _
    _ < _ := add_lt_add_of_lt_of_le (abs_dotProduct_lt hα hL)
      (abs_dotProduct_le (fun j => (hβ j).le) _)

/-- The product of an axis of the first box and an axis of the second, seen from the first. -/
def crossAxis (R : Matrix (Fin 3) (Fin 3) ℝ) (i j : Fin 3) : Fin 3 → ℝ := Pi.single i 1 ⨯₃ Rᵀ j

/-- The product of two axes, as the second box sees it. -/
theorem mulVec_crossAxis (hR : IsRotation R) (i j : Fin 3) :
    Rᵀ *ᵥ crossAxis R i j = R i ⨯₃ Pi.single j 1 := by
  -- the entries of the two products are cofactors on the one side and entries on the other
  have hcofactors : ∀ k l, R.adjugate k l = R l k := fun k l => by rw [hR.adjugate_eq]; rfl
  rw [adjugate_fin_three] at hcofactors
  simp only [Fin.forall_fin_succ, Fin.forall_fin_zero] at hcofactors
  simp only [of_apply, cons_val', cons_val_zero, cons_val_fin_one,
    Fin.succ_zero_eq_one, cons_val_one, Fin.succ_one_eq_two, cons_val, and_true] at hcofactors
  funext k
  fin_cases i <;> fin_cases j <;> fin_cases k <;>
    simp [crossAxis, cross_apply, mulVec, dotProduct, Fin.sum_univ_three] <;> linarith

/-- The product is no direction only where the two axes run along each other. -/
theorem crossAxis_ne_zero (hR : IsRotation R) {i j : Fin 3} (h : |R i j| < 1) :
    crossAxis R i j ≠ 0 := by
  intro hzero
  have hcolumn : R 0 j * R 0 j + R 1 j * R 1 j + R 2 j * R 2 j = 1 := by
    have hunit := congrFun (congrFun hR.orthogonal j) j
    rwa [one_apply_eq, mul_apply, Fin.sum_univ_three] at hunit
  have hx := congrFun hzero 0
  have hy := congrFun hzero 1
  have hz := congrFun hzero 2
  -- a vanishing product leaves the column a single entry, which is then one or minus one
  have hsquare : R i j * R i j = 1 := by
    fin_cases i <;> simp [crossAxis, cross_apply] at hx hy hz <;> simpa [hx, hy, hz] using hcolumn
  have hlt := (sq_lt_one_iff_abs_lt_one _).2 h
  rw [sq, hsquare] at hlt
  exact lt_irrefl _ hlt

end Directions

namespace Obb

namespace Relative

/-- Two boxes as the first one sees them: the second is turned by `R`, and `t` is the way to it. -/
noncomputable def turned (a b t : Vec3 ℝ) (R : Matrix (Fin 3) (Fin 3) ℝ) : Relative ℝ :=
  let r : Vec3 (Vec3 ℝ) := ⟨⟨R 0 0, R 0 1, R 0 2⟩, ⟨R 1 0, R 1 1, R 1 2⟩, ⟨R 2 0, R 2 1, R 2 2⟩⟩
  { a, b, r, absR := r.map (·.map Scalar.abs), t }

section Tests

variable {R : Matrix (Fin 3) (Fin 3) ℝ} {α β L : Fin 3 → ℝ} {a b t : Vec3 ℝ} {epsilon : ℝ}

/--
Along the direction `L`, seen from the first box, the two are `epsilon` apart: the way from the one
center to the other is that much longer than both boxes together.
-/
def FarAlong (R : Matrix (Fin 3) (Fin 3) ℝ) (a b t : Vec3 ℝ) (epsilon : ℝ) (L : Fin 3 → ℝ) : Prop :=
  (a.coords ⬝ᵥ fun i => |L i|) + (b.coords ⬝ᵥ fun j => |(Rᵀ *ᵥ L) j|) + epsilon ≤ |t.coords ⬝ᵥ L|

/-- Boxes with a common interior point are far along no direction. -/
theorem not_farAlong (hα : ∀ i, |α i| < a.coords i) (hβ : ∀ i, |β i| < b.coords i)
    (ht : t.coords = α - R *ᵥ β) (hepsilon : 0 ≤ epsilon) (hL : L ≠ 0) :
    ¬FarAlong R a b t epsilon L := by
  have hway := abs_way_lt R hα hβ hL
  rw [← ht] at hway
  unfold FarAlong
  linarith

/-- The axes of the first box separate where the way is long enough along one of them. -/
theorem separatedByFirst_iff :
    (turned a b t R).separatedByFirst epsilon = true ↔
      ∃ i : Axis, FarAlong R a b t epsilon (Pi.single i.index 1) := by
  refine Axis.any_all.trans (exists_congr fun i => decide_eq_true_iff.trans ?_)
  unfold FarAlong
  cases i <;>
    simp [turned, Axis.index, Vec3.coords, Vec3.map, Vec3.along, Scalar.abs, dotProduct,
      Fin.sum_univ_three]

/-- The axes of the second box do where that holds along one of them, as the first box sees it. -/
theorem separatedBySecond_iff (hR : IsRotation R) :
    (turned a b t R).separatedBySecond epsilon = true ↔
      ∃ j : Axis, FarAlong R a b t epsilon (R *ᵥ Pi.single j.index 1) := by
  refine Axis.any_all.trans (exists_congr fun j => decide_eq_true_iff.trans ?_)
  unfold FarAlong
  rw [mulVec_mulVec, hR.orthogonal, one_mulVec]
  cases j <;>
    simp [turned, Axis.index, Vec3.coords, Vec3.map, Vec3.along, Scalar.abs, dotProduct,
      Fin.sum_univ_three]

theorem separatedByProducts_iff (hR : IsRotation R) :
    (turned a b t R).separatedByProducts epsilon = true ↔
      ∃ i j : Axis, FarAlong R a b t epsilon (crossAxis R i.index j.index) := by
  refine Axis.any_all.trans (exists_congr fun i => Axis.any_all.trans (exists_congr fun j =>
    decide_eq_true_iff.trans ?_))
  unfold FarAlong
  rw [mulVec_crossAxis hR]
  cases i <;> cases j <;>
    simp [turned, crossWay, crossAxis, cross_apply, Axis.index, Vec3.coords, Vec3.map, Vec3.along,
      Scalar.abs, dotProduct, Fin.sum_univ_three, neg_add_eq_sub, ← sub_eq_add_neg]

/-- Where no two axes count as parallel, none are. -/
theorem abs_lt_one_of_not_parallel (h : (turned a b t R).parallel = false) (i j : Fin 3) :
    |R i j| < 1 := by
  have hbound : ∀ c : ℝ, decide (parallelCosine < c) = false → c < 1 := fun c hc =>
    lt_of_le_of_lt (not_lt.1 (of_decide_eq_false hc)) (by unfold parallelCosine; norm_num)
  simp only [parallel, turned, Vec3.any, Vec3.map, Scalar.abs, Bool.or_eq_false_iff] at h
  obtain ⟨⟨⟨⟨_, _⟩, _⟩, ⟨_, _⟩, _⟩, ⟨_, _⟩, _⟩ := h
  fin_cases i <;> fin_cases j <;> exact hbound _ (by assumption)

/-- With an interior point in common no axis of the first box separates. -/
theorem not_separatedByFirst (hα : ∀ i, |α i| < a.coords i) (hβ : ∀ i, |β i| < b.coords i)
    (ht : t.coords = α - R *ᵥ β) (hepsilon : 0 ≤ epsilon) :
    (turned a b t R).separatedByFirst epsilon = false := by
  refine Bool.eq_false_iff.2 fun hseparated => ?_
  obtain ⟨i, hfar⟩ := separatedByFirst_iff.1 hseparated
  exact not_farAlong hα hβ ht hepsilon (by simp) hfar

theorem not_separatedBySecond (hR : IsRotation R) (hα : ∀ i, |α i| < a.coords i)
    (hβ : ∀ i, |β i| < b.coords i) (ht : t.coords = α - R *ᵥ β) (hepsilon : 0 ≤ epsilon) :
    (turned a b t R).separatedBySecond epsilon = false := by
  refine Bool.eq_false_iff.2 fun hseparated => ?_
  obtain ⟨j, hfar⟩ := (separatedBySecond_iff hR).1 hseparated
  have hne : R *ᵥ Pi.single j.index 1 ≠ 0 := fun hzero => by
    have hsingle := hR.mulVec_injective (hzero.trans (mulVec_zero R).symm)
    simpa using congrFun hsingle j.index
  exact not_farAlong hα hβ ht hepsilon hne hfar

theorem not_separatedByProducts (hR : IsRotation R) (hα : ∀ i, |α i| < a.coords i)
    (hβ : ∀ i, |β i| < b.coords i) (ht : t.coords = α - R *ᵥ β) (hepsilon : 0 ≤ epsilon)
    (hparallel : (turned a b t R).parallel = false) :
    (turned a b t R).separatedByProducts epsilon = false := by
  refine Bool.eq_false_iff.2 fun hseparated => ?_
  obtain ⟨i, j, hfar⟩ := (separatedByProducts_iff hR).1 hseparated
  -- the products are tested when no two axes are parallel, and then none of them vanishes
  have hne := crossAxis_ne_zero hR (abs_lt_one_of_not_parallel hparallel i.index j.index)
  exact not_farAlong hα hβ ht hepsilon hne hfar

end Tests

end Relative

/-- Two boxes, seen from the first: the way turned back, and the turn of one against the other. -/
theorem relative_transform {s t : Transform ℝ} (hs : s.Rigid) (ht : t.Rigid) (a b : Obb ℝ) :
    ∃ way : Vec3 ℝ, way.coords =
      s.turnᵀ *ᵥ ((b.transform t).center - (a.transform s).center).coords ∧
      (a.transform s).relative (b.transform t) =
        .turned a.localHalf b.localHalf way (s.turnᵀ * t.turn) := by
  have hcosine : ∀ i j, ((a.transform s).axes.along i).dot ((b.transform t).axes.along j) =
      (s.turnᵀ * t.turn) i.index j.index := by
    intro i j
    rw [axes_transform hs, axes_transform ht, Vec3.dot_eq, Transform.coords_direction,
      Transform.coords_direction, Vec3.coords_unit, Vec3.coords_unit]
    simp [mul_apply, dotProduct]
  have hway : ∀ (d : Vec3 ℝ) i, d.dot ((a.transform s).axes.along i) =
      (s.turnᵀ *ᵥ d.coords) i.index := by
    intro d i
    rw [axes_transform hs, Vec3.dot_eq, Transform.coords_direction, Vec3.coords_unit,
      dotProduct_mulVec, ← mulVec_transpose, dotProduct_single, mul_one]
  -- the record of rows, entry by entry
  have hrows : ((a.transform s).axes.map fun u => (b.transform t).axes.map fun v => u.dot v) =
      let R := s.turnᵀ * t.turn
      ⟨⟨R 0 0, R 0 1, R 0 2⟩, ⟨R 1 0, R 1 1, R 1 2⟩, ⟨R 2 0, R 2 1, R 2 2⟩⟩ := by
    refine Vec3.ext (Vec3.ext ?_ ?_ ?_) (Vec3.ext ?_ ?_ ?_) (Vec3.ext ?_ ?_ ?_)
    exacts [hcosine .x .x, hcosine .x .y, hcosine .x .z, hcosine .y .x, hcosine .y .y,
      hcosine .y .z, hcosine .z .x, hcosine .z .y, hcosine .z .z]
  refine ⟨(a.transform s).axes.map fun u => ((b.transform t).center - (a.transform s).center).dot u,
    ?_, ?_⟩
  · funext i
    obtain ⟨i, rfl⟩ := Axis.index_surjective i
    rw [← Vec3.along_eq, Vec3.along_map]
    exact hway _ i
  · unfold relative Relative.turned
    rw [hrows, half_transform hs, half_transform ht]

theorem relative_place {s t : Transform ℝ} (hs : s.Rigid) (ht : t.Rigid) (a b : LocalBox ℝ) :
    ∃ way : Vec3 ℝ, way.coords = s.turnᵀ *ᵥ ((place b t).center - (place a s).center).coords ∧
      (place a s).relative (place b t) =
        .turned a.extents.half b.extents.half way (s.turnᵀ * t.turn) :=
  relative_transform hs ht (.ofAabb (.ofShape a)) (.ofAabb (.ofShape b))

/-- Seen from the center along the box's own axes, an interior point is nearer than the faces. -/
theorem abs_sub_center_lt {t : Transform ℝ} (ht : t.Rigid) {shape : LocalBox ℝ} {p : Vec3 ℝ}
    (h : (place shape t).Interior (t.point p)) (i : Fin 3) :
    |(p.coords - shape.extents.center.coords) i| < shape.extents.half.coords i := by
  obtain ⟨i, rfl⟩ := Axis.index_surjective i
  have hi := h i
  rwa [dot_axes_place ht, half_place ht, Vec3.along_eq] at hi

/-- **Boxes with a common interior point intersect**, where they are placed rigidly. -/
theorem intersects_of_interior {s t : Transform ℝ} (hs : s.Rigid) (ht : t.Rigid) {a b : LocalBox ℝ}
    {x : Vec3 ℝ} (ha : (place a s).Interior x) (hb : (place b t).Interior x) {epsilon : ℝ}
    (hepsilon : 0 ≤ epsilon) : (place a s).intersects (place b t) epsilon = true := by
  obtain ⟨p, hp, hpx⟩ := (interior_place hs).1 ha
  obtain ⟨q, hq, hqx⟩ := (interior_place ht).1 hb
  have hR : IsRotation (s.turnᵀ * t.turn) := hs.rotation.transpose.mul ht.rotation
  have hbounds : (place a s).bounds.intersects (place b t).bounds epsilon = true :=
    Extents.overlaps_of_inside hepsilon (hpx ▸ Extents.inside_image hs hp)
      (hqx ▸ Extents.inside_image ht hq)
  obtain ⟨way, hway, hrelative⟩ := relative_place hs ht a b
  have hα := abs_sub_center_lt hs (hpx ▸ ha : (place a s).Interior (s.point p))
  have hβ := abs_sub_center_lt ht (hqx ▸ hb : (place b t).Interior (t.point q))
  -- from the one center to the common point, and on from there to the other center
  have hcommon : way.coords = (p.coords - a.extents.center.coords) -
      (s.turnᵀ * t.turn) *ᵥ (q.coords - b.extents.center.coords) := by
    have hcenters : ((place b t).center - (place a s).center).coords =
        s.turn *ᵥ (p.coords - a.extents.center.coords) -
          t.turn *ᵥ (q.coords - b.extents.center.coords) := by
      have hpq : (s.point p).coords = (t.point q).coords := by rw [hpx, hqx]
      show ((t.point b.extents.center) - (s.point a.extents.center)).coords = _
      rw [Transform.coords_point, Transform.coords_point] at hpq
      rw [Vec3.coords_sub, Transform.coords_point, Transform.coords_point, mulVec_sub, mulVec_sub]
      linear_combination -hpq
    rw [hway, hcenters, mulVec_sub, mulVec_mulVec, mulVec_mulVec,
      hs.rotation.orthogonal, one_mulVec]
  unfold intersects
  rw [hbounds, hrelative]
  simp only [Bool.true_and]
  rw [Relative.not_separatedByFirst hα hβ hcommon hepsilon,
    Relative.not_separatedBySecond hR hα hβ hcommon hepsilon]
  cases hparallel : (Relative.turned a.extents.half b.extents.half way (s.turnᵀ * t.turn)).parallel
      with
  | true => rfl
  | false =>
    rw [Relative.not_separatedByProducts hR hα hβ hcommon hepsilon hparallel]
    rfl

end Obb

end SceneGuard
