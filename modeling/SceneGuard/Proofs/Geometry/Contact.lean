import Mathlib.LinearAlgebra.Matrix.DotProduct
import SceneGuard.Proofs.Geometry.Hull
import SceneGuard.Proofs.Geometry.Inverse

/-!
# Triangles against boxes

A direction separates a triangle from a box around the origin when the triangle's interval along it
lies outside the box's, and for a common point it never does (`Triangle.Holds.not_misses`). Main
statements:

* `Triangle.meetsBox_of_holds` — a common point is found, whatever the triangle has collapsed to;
* `Triangle.planeMeets_iff` — the test of the plane compares the plane's distance with the reach of
  the box;
* `Obb.meetsTriangle_of_undoes` — a placed box is tested in its own frame, which keeps triangles,
  sides of planes and sides of faces;
* `Obb.meetsTriangle_of_contact_and_planes` — so the test misses no contact, and finds none across a
  face or across the plane of the triangle.
-/

namespace SceneGuard

open Matrix

theorem Vec3.coords_cross (v w : Vec3 ℝ) : (v.cross w).coords = v.coords ⨯₃ w.coords := by
  simp [cross, coords, cross_apply]

namespace Triangle

variable {tri : Triangle ℝ} {half center x : Vec3 ℝ} {L : Fin 3 → ℝ} {radius : ℝ}

/-!
## Points of a triangle

A point of a triangle is a mean of its corners, with weights that sum to one. Affine maps keep such
means, and so a triangle can be tested wherever it has been carried to.
-/

/-- The point is one of the triangle: a mean of its corners, with weights that are not negative. -/
def Holds (tri : Triangle ℝ) (x : Vec3 ℝ) : Prop :=
  ∃ k l m : ℝ, 0 ≤ k ∧ 0 ≤ l ∧ 0 ≤ m ∧ k + l + m = 1 ∧
    x.coords = k • tri.a.coords + l • tri.b.coords + m • tri.c.coords

/-- The edges do not run along one line. -/
def Proper (tri : Triangle ℝ) : Prop :=
  LinearIndependent ℝ ![(tri.b - tri.a).coords, (tri.c - tri.b).coords]

theorem holds_corners (tri : Triangle ℝ) : tri.Holds tri.a ∧ tri.Holds tri.b ∧ tri.Holds tri.c := by
  refine ⟨⟨1, 0, 0, ?_⟩, ⟨0, 1, 0, ?_⟩, ⟨0, 0, 1, ?_⟩⟩ <;> simp

/-- Affine maps take points of a triangle to points of its image. -/
theorem Holds.map {f : Vec3 ℝ → Vec3 ℝ} {M : Matrix (Fin 3) (Fin 3) ℝ} {o : Fin 3 → ℝ}
    (hf : ∀ y, (f y).coords = M *ᵥ y.coords + o) (h : tri.Holds x) : (tri.map f).Holds (f x) := by
  obtain ⟨k, l, m, hk, hl, hm, hsum, hx⟩ := h
  refine ⟨k, l, m, hk, hl, hm, hsum, ?_⟩
  funext i
  simp only [Triangle.map, hf, hx, mulVec_add, mulVec_smul, Pi.add_apply,
    Pi.smul_apply, smul_eq_mul]
  linear_combination (-o i) * hsum

/-- A placement takes the points of a triangle to those of the placed one: it keeps mixtures. -/
theorem Holds.map_point (h : tri.Holds x) (t : Transform ℝ) : (tri.map t.point).Holds (t.point x) :=
  h.map t.coords_point

theorem Holds.map_sub (h : tri.Holds x) (center : Vec3 ℝ) :
    (tri.map (· - center)).Holds (x - center) :=
  h.map (M := 1) (o := -center.coords) fun y => by rw [Vec3.coords_sub, one_mulVec, sub_eq_add_neg]

/-- Seen along any direction, a point of the triangle is between its corners. -/
theorem Holds.bounds (h : tri.Holds x) (L : Fin 3 → ℝ) :
    least (tri.a.coords ⬝ᵥ L) (tri.b.coords ⬝ᵥ L) (tri.c.coords ⬝ᵥ L) ≤ x.coords ⬝ᵥ L ∧
      x.coords ⬝ᵥ L ≤ greatest (tri.a.coords ⬝ᵥ L) (tri.b.coords ⬝ᵥ L) (tri.c.coords ⬝ᵥ L) := by
  obtain ⟨k, l, m, hk, hl, hm, hsum, hx⟩ := h
  have hmean : x.coords ⬝ᵥ L =
      k * (tri.a.coords ⬝ᵥ L) + l * (tri.b.coords ⬝ᵥ L) + m * (tri.c.coords ⬝ᵥ L) := by
    rw [hx, add_dotProduct, add_dotProduct, smul_dotProduct, smul_dotProduct, smul_dotProduct]
    rfl
  -- a mean of three numbers lies between the least and the greatest of them
  rw [hmean]
  generalize tri.a.coords ⬝ᵥ L = p, tri.b.coords ⬝ᵥ L = q, tri.c.coords ⬝ᵥ L = r
  constructor
  · have hp : least p q r ≤ p := (min_le_left _ _).trans (min_le_left _ _)
    have hq : least p q r ≤ q := (min_le_left _ _).trans (min_le_right _ _)
    have hr : least p q r ≤ r := min_le_right _ _
    calc least p q r = k * least p q r + l * least p q r + m * least p q r := by
          rw [← add_mul, ← add_mul, hsum, one_mul]
      _ ≤ k * p + l * q + m * r := by gcongr
  · have hp : p ≤ greatest p q r := (le_max_left _ _).trans (le_max_left _ _)
    have hq : q ≤ greatest p q r := (le_max_right _ _).trans (le_max_left _ _)
    have hr : r ≤ greatest p q r := le_max_right _ _
    calc k * p + l * q + m * r ≤ k * greatest p q r + l * greatest p q r + m * greatest p q r := by
          gcongr
      _ = greatest p q r := by rw [← add_mul, ← add_mul, hsum, one_mul]

/-!
## Directions

Along a direction the triangle covers the interval between the least and the greatest of its
corners, and the box one of its reach about zero. All thirteen tests of the code compare these two
intervals; the test of the plane does so through the corners of the box that lie farthest along the
normal.
-/

/-- Three numbers miss an interval about zero when all lie beyond the same end of it. -/
theorem misses_iff {p q r : ℝ} : misses p q r radius = true ↔
    (radius < p ∧ radius < q ∧ radius < r) ∨ (p < -radius ∧ q < -radius ∧ r < -radius) := by
  have hleast : radius < least p q r ↔ radius < p ∧ radius < q ∧ radius < r :=
    (lt_min_iff.trans (and_congr_left' lt_min_iff)).trans and_assoc
  have hgreatest : greatest p q r < -radius ↔ p < -radius ∧ q < -radius ∧ r < -radius :=
    (max_lt_iff.trans (and_congr_left' max_lt_iff)).trans and_assoc
  unfold misses
  rw [Bool.or_eq_true, decide_eq_true_iff, decide_eq_true_iff, hleast, hgreatest]

/-- A direction along which the triangle has a point within the radius does not separate it. -/
theorem Holds.not_misses (h : tri.Holds x) (hx : |x.coords ⬝ᵥ L| ≤ radius) :
    misses (tri.a.coords ⬝ᵥ L) (tri.b.coords ⬝ᵥ L) (tri.c.coords ⬝ᵥ L) radius = false := by
  obtain ⟨hleast, hgreatest⟩ := h.bounds L
  obtain ⟨hback, hforth⟩ := abs_le.1 hx
  have hfirst : ¬radius < least (tri.a.coords ⬝ᵥ L) (tri.b.coords ⬝ᵥ L) (tri.c.coords ⬝ᵥ L) :=
    not_lt.2 (hleast.trans hforth)
  have hsecond : ¬greatest (tri.a.coords ⬝ᵥ L) (tri.b.coords ⬝ᵥ L) (tri.c.coords ⬝ᵥ L) < -radius :=
    not_lt.2 (hback.trans hgreatest)
  unfold misses
  rw [decide_eq_false hfirst, decide_eq_false hsecond]
  rfl

/-- How far a box about the origin reaches along a direction, times the length of that. -/
noncomputable def reach (half d : Vec3 ℝ) : ℝ := half.coords ⬝ᵥ fun i => |d.coords i|

/-- Along a direction, the triangle reaches as far as its three corners do. -/
theorem separatedAlong_eq (half : Vec3 ℝ) (tri : Triangle ℝ) (d : Vec3 ℝ) :
    separatedAlong half tri d =
      misses (tri.a.coords ⬝ᵥ d.coords) (tri.b.coords ⬝ᵥ d.coords) (tri.c.coords ⬝ᵥ d.coords)
        (reach half d) := by
  have hreach : half.x * Scalar.abs d.x + half.y * Scalar.abs d.y + half.z * Scalar.abs d.z =
      reach half d := by
    simp [reach, dotProduct, Fin.sum_univ_three, Vec3.coords, Scalar.abs]
  unfold separatedAlong
  rw [hreach, Vec3.dot_eq, Vec3.dot_eq, Vec3.dot_eq]

/-- If a product of an edge and an axis separates, it does so as a direction like any other. -/
theorem separatedByEdges_eq_true (h : separatedByEdges half tri = true) :
    ∃ d, separatedAlong half tri d = true := by
  obtain ⟨edge, _, h⟩ := List.any_eq_true.1 h
  obtain ⟨i, h⟩ := Axis.any_all.1 h
  exact ⟨_, h⟩

/-- The axes of the box separate where the coordinates of the corners miss it. -/
theorem separatedByFaces_iff : separatedByFaces half tri = true ↔
    ∃ i : Axis, misses (tri.a.coords i.index) (tri.b.coords i.index) (tri.c.coords i.index)
      (half.coords i.index) = true := by
  unfold separatedByFaces
  simp only [Axis.any_all, Vec3.along_eq]

/-- The plane meets the box where it is no farther from the origin than the box reaches. -/
theorem planeMeets_iff {normal vertex : Vec3 ℝ} :
    planeMeets half normal vertex = true ↔ |normal.coords ⬝ᵥ vertex.coords| ≤
      reach half normal := by
  have hcorner : ∀ f : Axis → ℝ, normal.dot (Vec3.ofAxes f) =
      normal.coords (Axis.index .x) * f .x + normal.coords (Axis.index .y) * f .y +
        normal.coords (Axis.index .z) * f .z := fun _ => rfl
  -- along each axis the corner against the normal is on one side, and the farthest one on the other
  have hagainst : ∀ n h v : ℝ, n * (if 0 < n then -h - v else h - v) = -(h * |n|) - n * v := by
    intro n h v
    split_ifs with hn
    · rw [abs_of_pos hn]
      ring
    · rw [abs_of_nonpos (not_lt.1 hn)]
      ring
  have hfarthest : ∀ n h v : ℝ, n * (if 0 < n then h - v else -h - v) = h * |n| - n * v := by
    intro n h v
    split_ifs with hn
    · rw [abs_of_pos hn]
      ring
    · rw [abs_of_nonpos (not_lt.1 hn)]
      ring
  unfold planeMeets
  simp only [hcorner, Vec3.along_eq, hagainst, hfarthest, Bool.and_eq_true, Bool.not_eq_true',
    decide_eq_false_iff_not, decide_eq_true_iff, not_lt]
  rw [abs_le, reach, dotProduct, dotProduct, Fin.sum_univ_three, Fin.sum_univ_three]
  simp only [Axis.index]
  constructor
  · rintro ⟨h₁, h₂⟩
    constructor <;> linarith
  · rintro ⟨h₁, h₂⟩
    constructor <;> linarith

/-!
## Boxes along the axes

A point that triangle and box have in common keeps every test from separating them. The other way
round only faces and planes are dealt with: a triangle beyond a face is separated by that axis, and
a box beyond the plane by the normal.
-/

/-- The normal that the test takes: the product of two edges. -/
noncomputable def normal (tri : Triangle ℝ) : Vec3 ℝ := (tri.b - tri.a).cross (tri.c - tri.b)

theorem coords_normal (tri : Triangle ℝ) :
    tri.normal.coords = (tri.b - tri.a).coords ⨯₃ (tri.c - tri.b).coords :=
  Vec3.coords_cross _ _

/-- A shift does not turn the normal of a triangle. -/
theorem normal_map_sub (tri : Triangle ℝ) (center : Vec3 ℝ) :
    (tri.map (· - center)).normal = tri.normal := by
  have hsub : ∀ p q : Vec3 ℝ, (p - center) - (q - center) = p - q := fun p q =>
    Vec3.coords_injective (by simp only [Vec3.coords_sub, sub_sub_sub_cancel_right])
  unfold normal Triangle.map
  rw [hsub, hsub]

/-- Along its normal, all of a triangle is at one place. -/
theorem Holds.normal_dotProduct (h : tri.Holds x) :
    tri.normal.coords ⬝ᵥ x.coords = tri.normal.coords ⬝ᵥ tri.a.coords := by
  obtain ⟨k, l, m, -, -, -, hsum, hx⟩ := h
  have hfirst : tri.normal.coords ⬝ᵥ (tri.b.coords - tri.a.coords) = 0 := by
    rw [coords_normal, Vec3.coords_sub, dotProduct_comm, dot_self_cross]
  have hsecond : tri.normal.coords ⬝ᵥ (tri.c.coords - tri.b.coords) = 0 := by
    rw [coords_normal, Vec3.coords_sub tri.c, dotProduct_comm, dot_cross_self]
  rw [dotProduct_sub] at hfirst hsecond
  rw [hx, dotProduct_add, dotProduct_add, dotProduct_smul, dotProduct_smul,
    dotProduct_smul, smul_eq_mul, smul_eq_mul, smul_eq_mul]
  linear_combination (tri.normal.coords ⬝ᵥ tri.a.coords) * hsum + (l + m) * hfirst + m * hsecond

/-- A triangle with a point in the box about the origin is found to meet it. -/
theorem meetsCentered_of_holds (h : tri.Holds x) (hx : ∀ i, |x.coords i| ≤ half.coords i) :
    meetsCentered half tri = true := by
  have hreach : ∀ d : Vec3 ℝ, |x.coords ⬝ᵥ d.coords| ≤ reach half d :=
    fun d => abs_dotProduct_le hx d.coords
  -- the three groups of tests in the order of the code; a point held by both keeps each from
  -- separating
  have hedges : separatedByEdges half tri = false := by
    refine Bool.eq_false_iff.2 fun hseparated => ?_
    obtain ⟨d, hd⟩ := separatedByEdges_eq_true hseparated
    rw [separatedAlong_eq, h.not_misses (hreach d)] at hd
    cases hd
  have hfaces : separatedByFaces half tri = false := by
    refine Bool.eq_false_iff.2 fun hseparated => ?_
    obtain ⟨i, hi⟩ := separatedByFaces_iff.1 hseparated
    have hcoord : ∀ y : Vec3 ℝ, y.coords ⬝ᵥ Pi.single i.index 1 = y.coords i.index := fun y => by
      rw [dotProduct_single, mul_one]
    have hmisses := h.not_misses ((congrArg abs (hcoord x)).trans_le (hx i.index))
    rw [hcoord, hcoord, hcoord, hi] at hmisses
    cases hmisses
  have hplane : planeMeets half tri.normal tri.a = true := by
    rw [planeMeets_iff, ← h.normal_dotProduct, dotProduct_comm]
    exact hreach _
  unfold meetsCentered
  rw [hedges, hfaces]
  exact hplane

/-- A triangle with a point in the box is found to meet it. -/
theorem meetsBox_of_holds (h : tri.Holds x)
    (hx : ∀ i, |x.coords i - center.coords i| ≤ half.coords i) :
    tri.meetsBox center half = true :=
  meetsCentered_of_holds (h.map_sub center) fun i => by
    rw [Vec3.coords_sub]
    exact hx i

/-- A triangle beyond a face of the box does not meet it. -/
theorem not_meetsBox_of_face (i : Axis)
    (h : misses ((tri.a - center).coords i.index) ((tri.b - center).coords i.index)
      ((tri.c - center).coords i.index) (half.coords i.index) = true) :
      tri.meetsBox center half = false := by
  have hseparated : separatedByFaces half (tri.map (· - center)) = true :=
    separatedByFaces_iff.2 ⟨i, h⟩
  simp [meetsBox, meetsCentered, hseparated]

/-- A triangle whose plane is farther away than the box reaches does not meet it. -/
theorem not_meetsBox_of_plane
    (h : reach half tri.normal < |tri.normal.coords ⬝ᵥ (tri.a - center).coords|) :
    tri.meetsBox center half = false := by
  have hplane : planeMeets half tri.normal (tri.a - center) = false := by
    refine Bool.eq_false_iff.2 fun hmeets => ?_
    exact absurd (planeMeets_iff.1 hmeets) (not_le.2 h)
  rw [← normal_map_sub tri center] at hplane
  simp only [meetsBox, meetsCentered, Bool.and_eq_false_iff]
  exact .inr hplane

end Triangle

/-!
## Placed boxes

The code carries the triangle back into the frame of the box. Whatever undoes the placement keeps
points of triangles, sides of planes and sides of faces, so both directions follow from the case of
a box at the origin. A placement without an inverse leaves the enclosing box along the axes, and the
same case applies to that.
-/

/-- A point of a region is no farther from its center than the half extents. -/
theorem Extents.abs_sub_center_le {e : Extents ℝ} {p : Vec3 ℝ}
    (h : e.contains p = true) (i : Fin 3) : |p.coords i - e.center.coords i| ≤ e.half.coords i := by
  obtain ⟨hmin, hmax⟩ := contains_iff.1 h i
  rw [← center_sub_half] at hmin
  rw [← center_add_half] at hmax
  exact abs_le.2 ⟨by linarith, by linarith⟩

namespace LocalBox

/-- The point lies strictly beyond the upper face across axis `i` of the placed box. -/
def Above (b : LocalBox ℝ) (t : Transform ℝ) (i : Fin 3) (x : Vec3 ℝ) : Prop :=
  ∃ q, t.point q = x ∧ b.high i < q.coords i

/-- The point lies strictly beyond the lower face across axis `i` of the placed box. -/
def Below (b : LocalBox ℝ) (t : Transform ℝ) (i : Fin 3) (x : Vec3 ℝ) : Prop :=
  ∃ q, t.point q = x ∧ q.coords i < b.low i

/-- The whole placed box lies strictly on one side of the plane that the triangle is in. -/
def AwayFrom (b : LocalBox ℝ) (t : Transform ℝ) (tri : Triangle ℝ) : Prop :=
  ∃ (v : Vec3 ℝ) (c : ℝ), (∀ x, tri.Holds x → v.dot x = c) ∧ ∀ p, b.Holds p → c < v.dot (t.point p)

/-- A half extent is negative where a border has turned the box inside out, and only there. -/
theorem low_le_high_iff {b : LocalBox ℝ} {i : Fin 3} :
    0 ≤ b.extents.half.coords i ↔ b.low i ≤ b.high i := by
  rw [Extents.coords_half, coords_min_extents, coords_max_extents]
  constructor <;> intro h <;> linarith

end LocalBox

/-- What is perpendicular to two edges is along their normal,
as far as other directions can tell. -/
theorem dotProduct_of_perpendicular {e f g : Fin 3 → ℝ} (he : g ⬝ᵥ e = 0) (hf : g ⬝ᵥ f = 0)
    (z : Fin 3 → ℝ) : (e ⨯₃ f ⬝ᵥ e ⨯₃ f) * (g ⬝ᵥ z) = (g ⬝ᵥ e ⨯₃ f) * (e ⨯₃ f ⬝ᵥ z) := by
  have hparallel : e ⨯₃ f ⨯₃ g = 0 := by
    rw [cross_cross_eq_smul_sub_smul, dotProduct_comm e, dotProduct_comm f, he, hf,
      zero_smul, zero_smul, sub_zero]
  have hcross := cross_dot_cross (e ⨯₃ f) g (e ⨯₃ f) z
  rw [hparallel, zero_dotProduct] at hcross
  linear_combination -hcross

/-- A triangle whose plane has the box on one side is farther away,
along its normal, than the box reaches. -/
theorem Triangle.reach_lt {b : LocalBox ℝ} (hb : ∀ i, b.low i ≤ b.high i) {tri : Triangle ℝ}
    (hproper : tri.normal.coords ≠ 0) {g : Fin 3 → ℝ} {c : ℝ}
    (hplane : ∀ x, tri.Holds x → g ⬝ᵥ x.coords = c) (hside : ∀ p, b.Holds p → c < g ⬝ᵥ p.coords) :
    reach b.extents.half tri.normal < |tri.normal.coords ⬝ᵥ (tri.a - b.extents.center).coords| := by
  obtain ⟨hcorner, hcorner', hcorner''⟩ := tri.holds_corners
  have hfirst : g ⬝ᵥ (tri.b - tri.a).coords = 0 := by
    rw [Vec3.coords_sub, dotProduct_sub, hplane _ hcorner, hplane _ hcorner', sub_self]
  have hsecond : g ⬝ᵥ (tri.c - tri.b).coords = 0 := by
    rw [Vec3.coords_sub, dotProduct_sub, hplane _ hcorner', hplane _ hcorner'', sub_self]
  have halong := dotProduct_of_perpendicular hfirst hsecond
  rw [← coords_normal] at halong
  generalize tri.normal = n at hproper halong ⊢
  have hlength : 0 < n.coords ⬝ᵥ n.coords :=
    lt_of_le_of_ne (Finset.sum_nonneg fun i _ => mul_self_nonneg _)
      (Ne.symm (mt dotProduct_self_eq_zero.1 hproper))
  -- every point of the box is on one side of the plane along the normal
  have hsided : ∀ p, b.Holds p →
      0 < (g ⬝ᵥ n.coords) * (n.coords ⬝ᵥ p.coords - n.coords ⬝ᵥ tri.a.coords) := by
    intro p hp
    have hpositive : 0 < g ⬝ᵥ (p.coords - tri.a.coords) := by
      rw [dotProduct_sub, hplane _ hcorner]
      exact sub_pos.2 (hside p hp)
    rw [← dotProduct_sub, ← halong]
    exact mul_pos hlength hpositive
  obtain ⟨p, hp, hfar⟩ := LocalBox.exists_farthest hb n.coords
  obtain ⟨q, hq, hnear⟩ := LocalBox.exists_nearest hb n.coords
  have hpsided := hsided p hp
  have hqsided := hsided q hq
  rw [hfar] at hpsided
  rw [hnear] at hqsided
  unfold reach
  rw [Vec3.coords_sub, dotProduct_sub, lt_abs]
  rcases pos_and_pos_or_neg_and_neg_of_mul_pos hpsided with ⟨hpos, _⟩ | ⟨_, hpast⟩
  · have hpast := (mul_pos_iff_of_pos_left hpos).1 hqsided
    exact .inr (by linarith)
  · exact .inl (by linarith)

namespace Obb

variable {b : LocalBox ℝ} {t u : Transform ℝ} {tri : Triangle ℝ} {p : Vec3 ℝ}

/-- A box whose placement can be undone is tested in its own frame. -/
theorem meetsTriangle_of_undoes (ht : t.Affine) (hu : u.Undoes t) (b : LocalBox ℝ)
    (tri : Triangle ℝ) :
    (place b t).meetsTriangle tri = (tri.map u.point).meetsBox b.extents.center b.extents.half := by
  have hinverse : (place b t).placement.inverse? = some u :=
    (Transform.inverse?_eq_some_iff ht).2 hu
  unfold meetsTriangle
  rw [hinverse]
  rfl

/-- A point that box and triangle have in common is found. -/
theorem meetsTriangle_of_holds (ht : t.Affine) (hp : b.Holds p) (h : tri.Holds (t.point p)) :
    (place b t).meetsTriangle tri = true := by
  have hbox := Extents.contains_extents.2 hp
  cases hinverse : t.inverse? with
  | none =>
    -- the enclosing box has the point, too
    have hmeets :=
      Triangle.meetsBox_of_holds h (Extents.abs_sub_center_le (Extents.contains_image hbox))
    unfold meetsTriangle
    rw [show (place b t).placement.inverse? = none from hinverse]
    exact hmeets
  | some u =>
    have hu := (Transform.inverse?_eq_some_iff ht).1 hinverse
    have hlocal := h.map_point u
    rw [hu.point_point ht] at hlocal
    rw [meetsTriangle_of_undoes ht hu]
    exact Triangle.meetsBox_of_holds hlocal (Extents.abs_sub_center_le hbox)

/-- A triangle that lies wholly beyond one face is found to miss the box. -/
theorem not_meetsTriangle_of_face (ht : t.Affine) (hu : u.Undoes t) (i : Fin 3)
    (h : (∀ x, tri.Holds x → b.Above t i x) ∨ ∀ x, tri.Holds x → b.Below t i x) :
    (place b t).meetsTriangle tri = false := by
  obtain ⟨i, rfl⟩ := Axis.index_surjective i
  obtain ⟨ha, hb, hc⟩ := tri.holds_corners
  rw [meetsTriangle_of_undoes ht hu]
  refine Triangle.not_meetsBox_of_face i (Triangle.misses_iff.2 ?_)
  -- in the coordinates of the box, above a face is beyond the half extent on that axis
  rcases h with h | h
  · have hbeyond : ∀ x, tri.Holds x →
        b.extents.half.coords i.index < (u.point x - b.extents.center).coords i.index := by
      intro x hx
      obtain ⟨q, rfl, hq⟩ := h x hx
      rw [← LocalBox.coords_max_extents, ← Extents.center_add_half] at hq
      rw [hu.point_point ht, Vec3.coords_sub, Pi.sub_apply]
      linarith
    exact .inl ⟨hbeyond _ ha, hbeyond _ hb, hbeyond _ hc⟩
  · have hbeyond : ∀ x, tri.Holds x →
        (u.point x - b.extents.center).coords i.index < -b.extents.half.coords i.index := by
      intro x hx
      obtain ⟨q, rfl, hq⟩ := h x hx
      rw [← LocalBox.coords_min_extents, ← Extents.center_sub_half] at hq
      rw [hu.point_point ht, Vec3.coords_sub, Pi.sub_apply]
      linarith
    exact .inr ⟨hbeyond _ ha, hbeyond _ hb, hbeyond _ hc⟩

/-- Edges that do not run along one line do not do so in the frame of a box, either. -/
theorem normal_ne_zero (ht : t.Affine) (hu : u.Undoes t) (h : tri.Proper) :
    (tri.map u.point).normal.coords ≠ 0 := by
  -- the inverse is one-to-one, so it keeps the two edges independent
  have hinjective : Function.Injective u.turn.mulVecLin := by
    intro e f hef
    have heq : t.turn *ᵥ (u.turn *ᵥ e) = t.turn *ᵥ (u.turn *ᵥ f) := congrArg _ hef
    rwa [mulVec_mulVec, mulVec_mulVec, hu.turn_mul ht, one_mulVec, one_mulVec] at heq
  have hedge : ∀ p q : Vec3 ℝ, (u.point p - u.point q).coords = u.turn *ᵥ (p - q).coords :=
      fun p q => by
    rw [Vec3.coords_sub, Transform.coords_point, Transform.coords_point,
      add_sub_add_right_eq_sub, ← mulVec_sub, Vec3.coords_sub]
  have hmapped := h.map' u.turn.mulVecLin (LinearMap.ker_eq_bot.2 hinjective)
  have hedges : ![(u.point tri.b - u.point tri.a).coords, (u.point tri.c - u.point tri.b).coords] =
      u.turn.mulVecLin ∘ ![(tri.b - tri.a).coords, (tri.c - tri.b).coords] := by
    rw [hedge, hedge]
    funext k
    fin_cases k <;> rfl
  rw [← hedges] at hmapped
  rw [Triangle.coords_normal]
  exact crossProduct_ne_zero_iff_linearIndependent.2 hmapped

/-- A box on one side of the plane of a triangle is found to miss the triangle. -/
theorem not_meetsTriangle_of_awayFrom (hb : ∀ i, b.low i ≤ b.high i) (ht : t.Affine)
    (hu : u.Undoes t) (hproper : tri.Proper) (h : b.AwayFrom t tri) :
    (place b t).meetsTriangle tri = false := by
  obtain ⟨v, c, hplane, hside⟩ := h
  -- the plane as the box sees it
  have hlocal : ∀ y, (tri.map u.point).Holds y →
      (t.turnᵀ *ᵥ v.coords) ⬝ᵥ y.coords = c - v.coords ⬝ᵥ t.origin.xyz.coords := by
    intro y hy
    have hworld := hy.map_point t
    have hback : (tri.map u.point).map t.point = tri := by
      unfold Triangle.map
      simp only [hu.symm.point_point (hu.affine ht)]
    rw [hback] at hworld
    have hvalue := hplane _ hworld
    rw [Transform.dot_point] at hvalue
    exact eq_sub_of_add_eq hvalue
  rw [meetsTriangle_of_undoes ht hu]
  refine Triangle.not_meetsBox_of_plane
    (Triangle.reach_lt hb (normal_ne_zero ht hu hproper) hlocal fun p hp => ?_)
  have hvalue := hside p hp
  rw [Transform.dot_point] at hvalue
  exact sub_lt_iff_lt_add.2 hvalue

/--
**The triangle test misses no contact, and finds none across a face or across the plane of the
triangle.** The box has half extents that are not negative and any affine placement, and the
triangle may have collapsed. Where the placement can be undone, the test fails for a triangle that
is wholly beyond one face of the box, and for one whose plane leaves the box on one side.
-/
theorem meetsTriangle_of_contact_and_planes (hb : ∀ i, 0 ≤ b.extents.half.coords i) (ht : t.Affine)
    (tri : Triangle ℝ) :
    ((∃ p, b.Holds p ∧ tri.Holds (t.point p)) → (place b t).meetsTriangle tri = true) ∧
      ((∃ u : Transform ℝ, u.Undoes t) →
        (∀ i, ((∀ x, tri.Holds x → b.Above t i x) ∨ ∀ x, tri.Holds x → b.Below t i x) →
          (place b t).meetsTriangle tri = false) ∧
        (tri.Proper → b.AwayFrom t tri → (place b t).meetsTriangle tri = false)) := by
  refine ⟨?contact, fun ⟨u, hu⟩ => ⟨fun i => ?face, ?plane⟩⟩
  case contact =>
    rintro ⟨p, hp, h⟩
    exact meetsTriangle_of_holds ht hp h
  case face => exact not_meetsTriangle_of_face ht hu i
  case plane =>
    exact not_meetsTriangle_of_awayFrom (fun i => LocalBox.low_le_high_iff.1 (hb i)) ht hu

end Obb

/-- Twice as long along the first axis. -/
noncomputable def Transform.lengthening : Transform ℝ := stretch ⟨2.0, 1, 1⟩

theorem Transform.point_stretch (k p : Vec3 ℝ) : (stretch k).point p = p.times k := by
  ext <;> simp [stretch, ofColumns, point, image, Vec4.xyz, Vec3.splat, Vec3.times,
    Vec3.zipWith, mul_comm]

/-- To lengthen is undone by a stretch to the half. -/
theorem Transform.undoes_lengthening :
    (stretch ⟨1 / 2, 1, 1⟩ : Transform ℝ).Undoes lengthening := by
  constructor <;> ext <;>
    norm_num [lengthening, stretch, identity, ofColumns, Transform.comp, image,
      Vec3.unit, Vec3.splat]

/-- A point to which a triangle has collapsed. -/
noncomputable def Triangle.speck (p : Vec3 ℝ) : Triangle ℝ := ⟨p, p, p⟩

/-- A triangle whose corners coincide has that one point. -/
theorem Triangle.holds_speck {p x : Vec3 ℝ} : (speck p).Holds x ↔ x = p := by
  constructor
  · rintro ⟨k, l, m, -, -, -, hsum, hx⟩
    refine Vec3.coords_injective (hx.trans ?_)
    simp only [speck, ← add_smul, hsum, one_smul]
  · rintro rfl
    exact (speck x).holds_corners.1

/-- A triangle that reaches around a corner of a box. -/
noncomputable def Triangle.slant : Triangle ℝ := ⟨⟨30, -5, -5⟩, ⟨-5, 30, -5⟩, ⟨-5, -5, 30⟩⟩

/-- The slanted triangle lies in the plane where the coordinates add up to twenty. -/
theorem Triangle.sum_slant {x : Vec3 ℝ} (h : slant.Holds x) : (⟨1, 1, 1⟩ : Vec3 ℝ).dot x = 20 := by
  obtain ⟨k, l, m, -, -, -, hsum, hx⟩ := h
  have h₀ := congrFun hx 0
  have h₁ := congrFun hx 1
  have h₂ := congrFun hx 2
  simp [slant, Vec3.coords] at h₀ h₁ h₂
  simp only [Vec3.dot, one_mul]
  linarith

theorem Triangle.proper_slant : slant.Proper := by
  refine crossProduct_ne_zero_iff_linearIndependent.1 fun hzero => ?_
  rw [← Vec3.coords_cross] at hzero
  have hup : ((-5 : ℝ) - 30) * (-5 - 30) - (30 - -5) * (-5 - -5) = 0 := congrFun hzero 2
  norm_num at hup

/--
A bordered cube, lengthened or flattened: a speck at its center is met, one past its end is not, and
neither is a triangle that is beyond no face of it, but whose plane is.
-/
theorem Obb.meetsTriangle_of_contact_and_planes_lengthened :
    (∀ i, 0 ≤ LocalBox.mirrored.extents.half.coords i) ∧ Transform.lengthening.Affine ∧
      Triangle.slant.Proper ∧
      (place .mirrored (.stretch ⟨1, 0, 1⟩)).meetsTriangle (.speck (.splat 0)) = true ∧
      (place .mirrored .lengthening).meetsTriangle (.speck ⟨4, 2, 2⟩) = true ∧
      (place .mirrored .lengthening).meetsTriangle (.speck ⟨5, 0, 0⟩) = false ∧
      (place .mirrored .lengthening).meetsTriangle .slant = false := by
  have hhalf : ∀ i, 0 ≤ LocalBox.mirrored.extents.half.coords i := fun i =>
    LocalBox.low_le_high_iff.2 (LocalBox.bordered_mirrored.low_le_high i)
  have haffine : ∀ k : Vec3 ℝ, (Transform.stretch k).Affine :=
    fun k => Transform.affine_ofColumns _ _ _ _
  have hholds : ∀ {p : Vec3 ℝ}, (∀ i, |p.coords i| ≤ 2) → LocalBox.mirrored.Holds p := by
    intro p hp i
    rw [LocalBox.mirrored_low, LocalBox.mirrored_high]
    exact abs_le.1 (hp i)
  have hinverse : ∃ u : Transform ℝ, u.Undoes .lengthening := ⟨_, Transform.undoes_lengthening⟩
  have htested := fun tri => meetsTriangle_of_contact_and_planes hhalf (haffine ⟨2.0, 1, 1⟩) tri
  refine ⟨hhalf, haffine _, Triangle.proper_slant, ?flat, ?corner, ?past, ?slanted⟩
  case flat =>
    refine (meetsTriangle_of_contact_and_planes hhalf (haffine ⟨1, 0, 1⟩) _).1 ⟨.splat 0,
      hholds fun i => ?_, ?_⟩
    · fin_cases i <;> norm_num [Vec3.coords, Vec3.splat]
    · rw [Triangle.holds_speck, Transform.point_stretch]
      simp [Vec3.times, Vec3.zipWith, Vec3.splat]
  case corner =>
    refine (htested _).1 ⟨.splat 2, hholds fun i => ?_, ?_⟩
    · fin_cases i <;> norm_num [Vec3.coords, Vec3.splat]
    · rw [Triangle.holds_speck, Transform.point_stretch]
      norm_num [Vec3.times, Vec3.zipWith, Vec3.splat]
  case past =>
    refine ((htested _).2 hinverse).1 0 (.inl fun x hx => ⟨⟨5 / 2, 0, 0⟩, ?_, ?_⟩)
    · rw [Triangle.holds_speck.1 hx, Transform.point_stretch]
      norm_num [Vec3.times, Vec3.zipWith]
    · rw [LocalBox.mirrored_high]
      norm_num [Vec3.coords]
  case slanted =>
    -- the corners of the lengthened cube add up to 8 at most, up or down, and the triangle to 20
    refine ((htested _).2 hinverse).2 Triangle.proper_slant
      ⟨⟨-1, -1, -1⟩, -20, fun x hx => ?_, fun p hp => ?_⟩
    · have hsum := Triangle.sum_slant hx
      simp only [Vec3.dot] at hsum ⊢
      linarith
    · have h₀ := (abs_le.1 (LocalBox.abs_coords_le_two hp 0)).2
      have h₁ := (abs_le.1 (LocalBox.abs_coords_le_two hp 1)).2
      have h₂ := (abs_le.1 (LocalBox.abs_coords_le_two hp 2)).2
      rw [Transform.point_stretch]
      simp only [Vec3.dot, Vec3.times, Vec3.zipWith]
      simp [Vec3.coords] at h₀ h₁ h₂
      linarith

end SceneGuard
