import Mathlib.Analysis.Convex.Basic
import SceneGuard.Proofs.Geometry.Gaps

/-!
# Enclosing boxes are tight

A box is filled by the points between its two corners, stretched axis by axis and then moved by no
more than the border (`LocalBox.Fills`). Main statements:

* `LocalBox.fills_iff` — these are the points between the faces, in whatever order the corners come
  and whatever the signs of the factors are;
* `Extents.contains_image` — the enclosing box of a placed box has all its points;
* `Aabb.transform_tight` — and it begins and ends, along each axis of the world, where they do.
-/

namespace SceneGuard

open Matrix

/-!
## What fills a box

A stretched corner may come out on either side of the other. The interval between the two is the
image of the interval before, which settles both signs of the factor at once.
-/

namespace LocalBox

variable {b : LocalBox ℝ} {p : Vec3 ℝ}

/-- The point is one between the two corners, stretched,
and then moved by no more than the border. -/
def Fills (b : LocalBox ℝ) (p : Vec3 ℝ) : Prop :=
  ∃ q d : Vec3 ℝ, (∀ i, q.coords i ∈ Set.uIcc (b.min.coords i) (b.max.coords i)) ∧
    (∀ i, |d.coords i| ≤ b.border.coords i) ∧ p = q.times b.scale + d

/-- Along an axis: between the faces lies what is between the stretched corners,
give or take the border. -/
theorem exists_stretched (h : b.Bordered) {x : ℝ} {i : Fin 3} (hlow : b.low i ≤ x)
    (hhigh : x ≤ b.high i) :
    ∃ y d, y ∈ Set.uIcc (b.min.coords i) (b.max.coords i) ∧ |d| ≤ b.border.coords i ∧
      x = y * b.scale.coords i + d := by
  unfold low at hlow
  unfold high at hhigh
  have hborder := h i
  have hsides : b.min.coords i * b.scale.coords i ⊓ b.max.coords i * b.scale.coords i ≤
      b.min.coords i * b.scale.coords i ⊔ b.max.coords i * b.scale.coords i := inf_le_sup
  -- the nearest of the stretched points, and what is left of the way from there
  obtain ⟨z, hz, hnear⟩ : ∃ z ∈ Set.uIcc (b.min.coords i * b.scale.coords i)
      (b.max.coords i * b.scale.coords i), |x - z| ≤ b.border.coords i := by
    rcases le_total x (b.min.coords i * b.scale.coords i ⊓ b.max.coords i * b.scale.coords i)
      with hx | hx
    · exact ⟨_, ⟨le_rfl, hsides⟩, abs_le.2 ⟨by linarith, by linarith⟩⟩
    · rcases le_total x (b.min.coords i * b.scale.coords i ⊔ b.max.coords i * b.scale.coords i)
        with hx' | hx'
      · exact ⟨x, ⟨hx, hx'⟩, by simpa using hborder⟩
      · exact ⟨_, ⟨hsides, le_rfl⟩, abs_le.2 ⟨by linarith, by linarith⟩⟩
  rw [← Set.image_mul_const_uIcc] at hz
  obtain ⟨y, hy, rfl⟩ := hz
  exact ⟨y, x - y * b.scale.coords i, hy, hnear, by ring⟩

/-- A box with a border is filled by what lies between its faces. -/
theorem fills_iff (h : b.Bordered) : b.Fills p ↔ b.Holds p := by
  constructor
  · rintro ⟨q, d, hq, hd, rfl⟩ i
    -- a negative scale turns the interval around
    have hstretched : q.coords i * b.scale.coords i ∈
        Set.uIcc (b.min.coords i * b.scale.coords i) (b.max.coords i * b.scale.coords i) := by
      rw [← Set.image_mul_const_uIcc]
      exact Set.mem_image_of_mem _ (hq i)
    obtain ⟨hmin, hmax⟩ := hstretched
    obtain ⟨hback, hforth⟩ := abs_le.1 (hd i)
    rw [Vec3.coords_add, Pi.add_apply, Vec3.coords_times]
    unfold low high
    constructor <;> linarith
  · intro hp
    choose y d hy hd hx using fun i => exists_stretched h (hp i).1 (hp i).2
    obtain ⟨q, rfl⟩ := Vec3.coords_surjective y
    obtain ⟨d, rfl⟩ := Vec3.coords_surjective d
    refine ⟨q, d, hy, hd, Vec3.coords_injective (funext fun i => ?_)⟩
    rw [hx i, Vec3.coords_add, Pi.add_apply, Vec3.coords_times]

end LocalBox

/-!
## Enclosing boxes

Along an axis of the world the place of a point is an affine function of its three coordinates. Its
extremes over a box are taken at corners, and the code takes the least and the greatest over all
eight.
-/

namespace Extents

variable {e : Extents ℝ} {p : Vec3 ℝ} {t : Transform ℝ}

/-- A region contains what is between its bounds along every axis. -/
theorem contains_iff :
    e.contains p = true ↔ ∀ i, e.min.coords i ≤ p.coords i ∧ p.coords i ≤ e.max.coords i := by
  simp [contains, Scalar.within, Vec3.coords, Fin.forall_fin_succ, and_assoc]

/-- The region of a box contains the points of the box, and no others. -/
theorem contains_extents {b : LocalBox ℝ} : b.extents.contains p = true ↔ b.Holds p := by
  simp only [contains_iff, LocalBox.coords_min_extents, LocalBox.coords_max_extents, LocalBox.Holds]

/-- The corners are all eight choices of a bound for each axis. -/
theorem mem_corners_iff {c : Vec3 ℝ} :
    c ∈ e.corners ↔ ∀ i, c.coords i = e.min.coords i ∨ c.coords i = e.max.coords i :=
  ⟨coords_of_mem_corners, fun h => mem_corners (h 0) (h 1) (h 2)⟩

/-- In every direction some corner lies no later than a point of the region. -/
theorem exists_corner_le (h : e.contains p = true) (g : Fin 3 → ℝ) :
    ∃ c ∈ e.corners, g ⬝ᵥ c.coords ≤ g ⬝ᵥ p.coords := by
  have haxis : ∀ i, ∃ x, (x = e.min.coords i ∨ x = e.max.coords i) ∧
      g i * x ≤ g i * p.coords i := by
    intro i
    obtain ⟨hmin, hmax⟩ := contains_iff.1 h i
    rcases le_total 0 (g i) with hpos | hneg
    · exact ⟨_, .inl rfl, mul_le_mul_of_nonneg_left hmin hpos⟩
    · exact ⟨_, .inr rfl, mul_le_mul_of_nonpos_left hmax hneg⟩
  choose x hx hle using haxis
  obtain ⟨c, rfl⟩ := Vec3.coords_surjective x
  exact ⟨c, mem_corners_iff.2 hx, Finset.sum_le_sum fun i _ => hle i⟩

/-- In every direction some corner lies no earlier than a point of the region. -/
theorem exists_corner_ge (h : e.contains p = true) (g : Fin 3 → ℝ) :
    ∃ c ∈ e.corners, g ⬝ᵥ p.coords ≤ g ⬝ᵥ c.coords := by
  obtain ⟨c, hc, hle⟩ := exists_corner_le h (-g)
  rw [neg_dotProduct, neg_dotProduct, neg_le_neg_iff] at hle
  exact ⟨c, hc, hle⟩

/-- Each coordinate of a placed point is a row of the turn applied to the point, and a shift. -/
theorem coords_point_eq (t : Transform ℝ) (p : Vec3 ℝ) (i : Fin 3) :
    (t.point p).coords i = t.turn i ⬝ᵥ p.coords + t.origin.xyz.coords i := by
  rw [Transform.coords_point]
  rfl

/-- The enclosing box of a placed region has the image of each of its corners. -/
theorem image_bounds {c : Vec3 ℝ} (hc : c ∈ e.corners) (t : Transform ℝ) (i : Fin 3) :
    (e.image t).min.coords i ≤ (t.point c).coords i ∧
      (t.point c).coords i ≤ (e.image t).max.coords i :=
  around_bounds (List.mem_map_of_mem hc) i

/-- The enclosing box of a placed region has the image of each of its points. -/
theorem contains_image (h : e.contains p = true) : (e.image t).contains (t.point p) = true := by
  refine contains_iff.2 fun i => ?_
  obtain ⟨c, hc, hle⟩ := exists_corner_le h (t.turn i)
  obtain ⟨c', hc', hge⟩ := exists_corner_ge h (t.turn i)
  have hmin := (image_bounds hc t i).1
  have hmax := (image_bounds hc' t i).2
  rw [coords_point_eq] at hmin hmax ⊢
  constructor <;> linarith

/-- Center and half extents give back the lower bound. -/
theorem center_sub_half (e : Extents ℝ) (i : Fin 3) :
    e.center.coords i - e.half.coords i = e.min.coords i := by
  rw [coords_center, coords_half]
  ring

theorem center_add_half (e : Extents ℝ) (i : Fin 3) :
    e.center.coords i + e.half.coords i = e.max.coords i := by
  rw [coords_center, coords_half]
  ring

end Extents

namespace LocalBox

variable {b : LocalBox ℝ} {t : Transform ℝ}

/-- Between the images of two points of a box, along an axis of the world, lie images of others. -/
theorem exists_between {p q : Vec3 ℝ} (hp : b.Holds p) (hq : b.Holds q) {i : Fin 3} {x : ℝ}
    (hlow : (t.point p).coords i ≤ x) (hhigh : x ≤ (t.point q).coords i) :
    ∃ r, b.Holds r ∧ (t.point r).coords i = x := by
  have hx : x ∈ segment ℝ ((t.point p).coords i) ((t.point q).coords i) := by
    rw [segment_eq_Icc (hlow.trans hhigh)]
    exact ⟨hlow, hhigh⟩
  obtain ⟨k, l, hk, hl, hkl, rfl⟩ := hx
  obtain ⟨r, hr⟩ := Vec3.coords_surjective (k • p.coords + l • q.coords)
  refine ⟨r, fun j => ?_, ?_⟩
  · have hmem := convex_Icc (b.low j) (b.high j) (hp j) (hq j) hk hl hkl
    rw [hr]
    exact hmem
  · simp only [Extents.coords_point_eq, hr, dotProduct_add, dotProduct_smul, smul_eq_mul]
    linear_combination (-t.origin.xyz.coords i) * hkl

/-- Along an axis of the world the images of the points of a box are what
its enclosing box reaches over. -/
theorem image_holds (h : b.Bordered) (t : Transform ℝ) (i : Fin 3) :
    (fun p => (t.point p).coords i) '' {p | b.Holds p} =
      Set.Icc ((b.extents.image t).min.coords i) ((b.extents.image t).max.coords i) := by
  ext x
  constructor
  · rintro ⟨p, hp, rfl⟩
    exact Extents.contains_iff.1 (Extents.contains_image (Extents.contains_extents.2 hp)) i
  · rintro ⟨hmin, hmax⟩
    -- the ends are images of corners, and these belong to the box
    obtain ⟨⟨c, hc, hcmin⟩, c', hc', hcmax⟩ := b.extents.exists_image t i
    exact exists_between (h.holds_corner hc) (h.holds_corner hc') (hcmin ▸ hmin) (hcmax ▸ hmax)

end LocalBox

namespace Aabb

/--
**A placed box is enclosed tightly.** Let the corners come in any order, the factors have any signs
and the border move no face inwards, and let the placement be any affine one. Along each axis of the
world, the enclosing box then runs exactly over the coordinates of the placed points. So it has
every placed point; and the center, the half extents and the eight corners that it stores, whatever
it stored before, are those of its lower and its upper end.
-/
theorem transform_tight (a : Aabb ℝ) (h : a.shape.Bordered) (t : Transform ℝ) :
    (∀ i, (fun p => (t.point p).coords i) '' {p | a.shape.Fills p} =
        Set.Icc ((a.transform t).extents.min.coords i) ((a.transform t).extents.max.coords i)) ∧
      (∀ p, a.shape.Fills p → (a.transform t).contains (t.point p) = true) ∧
      (∀ i, (a.transform t).center.coords i - (a.transform t).half.coords i =
          (a.transform t).extents.min.coords i ∧
        (a.transform t).center.coords i + (a.transform t).half.coords i =
          (a.transform t).extents.max.coords i) ∧
      (a.transform t).corners.length = 8 ∧
      ∀ c, c ∈ (a.transform t).corners ↔
        ∀ i, c.coords i = (a.transform t).extents.min.coords i ∨
          c.coords i = (a.transform t).extents.max.coords i := by
  -- the fields stored are those of the image, as one writing of the extents leaves them
  simp only [transform_eq, contains, extents_setExtents, center_setExtents, half_setExtents,
    corners_setExtents]
  refine ⟨fun i => ?range, fun p hp => ?held, fun i => ?middle, rfl,
    fun c => Extents.mem_corners_iff⟩
  case range =>
    simp only [LocalBox.fills_iff h]
    exact LocalBox.image_holds h t i
  case held =>
    exact Extents.contains_image (Extents.contains_extents.2 ((LocalBox.fills_iff h).1 hp))
  case middle => exact ⟨Extents.center_sub_half _ i, Extents.center_add_half _ i⟩

/-- A mirrored and bordered cube turned by a radian: a corner is inside,
and some point reaches the end. -/
theorem transform_tight_turned :
    LocalBox.mirrored.Bordered ∧
      ((ofShape .mirrored).transform (.turnedAt 0)).contains
        ((Transform.turnedAt 0).point ⟨2, -2, 2⟩) = true ∧
      ∃ p, LocalBox.mirrored.Fills p ∧ ((Transform.turnedAt 0).point p).coords 0 =
        ((ofShape LocalBox.mirrored).transform (.turnedAt 0)).extents.max.coords 0 := by
  have htight := transform_tight (ofShape .mirrored) LocalBox.bordered_mirrored (.turnedAt 0)
  have hcorner : LocalBox.mirrored.Fills ⟨2, -2, 2⟩ := by
    refine (LocalBox.fills_iff LocalBox.bordered_mirrored).2 fun i => ?_
    rw [LocalBox.mirrored_low, LocalBox.mirrored_high]
    fin_cases i <;> norm_num [Vec3.coords]
  have hheld := htight.2.1 _ hcorner
  obtain ⟨hmin, hmax⟩ := Extents.contains_iff.1 hheld 0
  have hend := Set.right_mem_Icc.2 (hmin.trans hmax)
  rw [← htight.1 0] at hend
  exact ⟨LocalBox.bordered_mirrored, hheld, hend⟩

end Aabb

end SceneGuard
