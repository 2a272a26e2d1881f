import SceneGuard.Proofs.Geometry.Separation

/-!
# Gaps between boxes

A box, faces included, holds what lies between its stretched corners, moved outwards by the border
(`LocalBox.Holds`). Two placed boxes are apart along a direction when the one ends a gap before the
other begins (`LocalBox.Apart`). Main statements:

* `LocalBox.exists_farthest` — along any direction some point of a box is as far from the center as
  the half extents together reach;
* `far_of_apart` — so boxes that are apart have centers that are far enough from each other;
* `Obb.intersects_of_common_and_gaps` — the box test finds every common interior point, and finds no
  overlap across a gap along an axis of either box or of the world.
-/

namespace SceneGuard

open Matrix

/-!
## What a box holds

With corners in any order and factors of any sign, the faces lie where the stretched corners do,
moved outwards by the border. A border that moves no face inwards keeps the lower face below the
upper one.
-/

namespace LocalBox

variable {b : LocalBox ℝ} {p : Vec3 ℝ}

/-- Where the box begins along an axis of its own frame. -/
def low (b : LocalBox ℝ) (i : Fin 3) : ℝ :=
  b.min.coords i * b.scale.coords i ⊓ b.max.coords i * b.scale.coords i - b.border.coords i

/-- Where the box ends along an axis of its own frame. -/
def high (b : LocalBox ℝ) (i : Fin 3) : ℝ :=
  b.min.coords i * b.scale.coords i ⊔ b.max.coords i * b.scale.coords i + b.border.coords i

/-- The point lies in the box, or on one of its faces. -/
def Holds (b : LocalBox ℝ) (p : Vec3 ℝ) : Prop := ∀ i, b.low i ≤ p.coords i ∧ p.coords i ≤ b.high i

/-- The point lies in the box, and on none of its faces. -/
def HoldsInside (b : LocalBox ℝ) (p : Vec3 ℝ) : Prop :=
  ∀ i, b.low i < p.coords i ∧ p.coords i < b.high i

/-- No face moves inwards. -/
def Bordered (b : LocalBox ℝ) : Prop := ∀ i, 0 ≤ b.border.coords i

/-- The lower bounds of a box are those of its description. -/
theorem coords_min_extents (b : LocalBox ℝ) (i : Fin 3) : b.extents.min.coords i = b.low i := by
  simp only [extents, Vec3.coords_sub, Pi.sub_apply, Vec3.coords_lower, Vec3.coords_times, low]

theorem coords_max_extents (b : LocalBox ℝ) (i : Fin 3) : b.extents.max.coords i = b.high i := by
  simp only [extents, Vec3.coords_add, Pi.add_apply, Vec3.coords_upper, Vec3.coords_times, high]

/-- Strictly inside the region is strictly inside the box. -/
theorem inside_extents : b.extents.Inside p ↔ b.HoldsInside p := by
  simp only [Extents.Inside, coords_min_extents, coords_max_extents, HoldsInside]

/-- A border that is not negative does not turn a box inside out. -/
theorem Bordered.low_le_high (h : b.Bordered) (i : Fin 3) : b.low i ≤ b.high i := by
  have hcorners : b.min.coords i * b.scale.coords i ⊓ b.max.coords i * b.scale.coords i ≤
      b.min.coords i * b.scale.coords i ⊔ b.max.coords i * b.scale.coords i := inf_le_sup
  have hborder := h i
  unfold low high
  linarith

/-- Along any direction some point of the box is as far from the center
as the half extents together reach. -/
theorem exists_farthest (h : ∀ i, b.low i ≤ b.high i) (L : Fin 3 → ℝ) :
    ∃ p, b.Holds p ∧
      L ⬝ᵥ p.coords = L ⬝ᵥ b.extents.center.coords + b.extents.half.coords ⬝ᵥ fun i => |L i| := by
  -- along each axis the face on the side where `L` grows
  obtain ⟨p, hp⟩ := Vec3.coords_surjective fun i => if 0 ≤ L i then b.high i else b.low i
  refine ⟨p, fun i => ?_, ?_⟩
  · rw [hp]
    have hle := h i
    dsimp only
    split
    · exact ⟨hle, le_rfl⟩
    · exact ⟨le_rfl, hle⟩
  · rw [hp, dotProduct, dotProduct, dotProduct, ← Finset.sum_add_distrib]
    refine Finset.sum_congr rfl fun i _ => ?_
    rw [Extents.coords_center, Extents.coords_half, coords_min_extents, coords_max_extents]
    split
    · next hpos =>
      rw [abs_of_nonneg hpos]
      ring
    · next hneg =>
      rw [abs_of_neg (not_le.1 hneg)]
      ring

/-- And some point is as far on the other side. -/
theorem exists_nearest (h : ∀ i, b.low i ≤ b.high i) (L : Fin 3 → ℝ) :
    ∃ p, b.Holds p ∧
      L ⬝ᵥ p.coords = L ⬝ᵥ b.extents.center.coords - b.extents.half.coords ⬝ᵥ fun i => |L i| := by
  obtain ⟨p, hp, hfar⟩ := exists_farthest h (-L)
  simp only [neg_dotProduct, Pi.neg_apply, abs_neg] at hfar
  exact ⟨p, hp, by linarith⟩

/-!
## Apart along a direction

A gap speaks of all points of both boxes. The points that lie farthest along the direction turn it
into one inequality between the centers and the half extents.
-/

/-- Seen along `u`, the first box, where it is placed,
ends at least `gap` before the second one begins. -/
def Precedes (a : LocalBox ℝ) (s : Transform ℝ) (b : LocalBox ℝ) (t : Transform ℝ) (u : Vec3 ℝ)
    (gap : ℝ) : Prop :=
  ∀ p q, a.Holds p → b.Holds q → u.dot (s.point p) + gap ≤ u.dot (t.point q)

/-- Seen along `u`, the two boxes, where they are placed, are at least `gap` apart. -/
def Apart (a : LocalBox ℝ) (s : Transform ℝ) (b : LocalBox ℝ) (t : Transform ℝ) (u : Vec3 ℝ)
    (gap : ℝ) : Prop :=
  a.Precedes s b t u gap ∨ b.Precedes t a s u gap

end LocalBox

theorem Vec3.unit_dot (i : Axis) (v : Vec3 ℝ) : (Vec3.unit i).dot v = v.coords i.index := by
  rw [Vec3.dot_eq, Vec3.coords_unit, single_dotProduct, one_mul]

/-- Seen along a direction, a placed point is the point seen along the direction turned back. -/
theorem Transform.dot_point (t : Transform ℝ) (u p : Vec3 ℝ) :
    u.dot (t.point p) = (t.turnᵀ *ᵥ u.coords) ⬝ᵥ p.coords + u.coords ⬝ᵥ t.origin.xyz.coords := by
  rw [Vec3.dot_eq, coords_point, dotProduct_add, dotProduct_mulVec, mulVec_transpose]

section Far

variable {a b : LocalBox ℝ} {s t : Transform ℝ} {u : Vec3 ℝ} {gap : ℝ}

/-- Where one box precedes the other, so does its center, by the reach of both boxes and the gap. -/
theorem far_of_precedes (ha : a.Bordered) (hb : b.Bordered) (h : a.Precedes s b t u gap) :
    (a.extents.half.coords ⬝ᵥ fun i => |(s.turnᵀ *ᵥ u.coords) i|) +
      (b.extents.half.coords ⬝ᵥ fun i => |(t.turnᵀ *ᵥ u.coords) i|) + gap ≤
      u.dot (t.point b.extents.center) - u.dot (s.point a.extents.center) := by
  obtain ⟨p, hp, hfar⟩ := LocalBox.exists_farthest ha.low_le_high (s.turnᵀ *ᵥ u.coords)
  obtain ⟨q, hq, hnear⟩ := LocalBox.exists_nearest hb.low_le_high (t.turnᵀ *ᵥ u.coords)
  have hgap := h p q hp hq
  simp only [Transform.dot_point] at hgap ⊢
  linarith

/-- Boxes with a gap along a direction are as far apart along it as both of them and the gap. -/
theorem far_of_apart (ha : a.Bordered) (hb : b.Bordered) (h : a.Apart s b t u gap) :
    (a.extents.half.coords ⬝ᵥ fun i => |(s.turnᵀ *ᵥ u.coords) i|) +
      (b.extents.half.coords ⬝ᵥ fun i => |(t.turnᵀ *ᵥ u.coords) i|) + gap ≤
      |u.dot (t.point b.extents.center) - u.dot (s.point a.extents.center)| := by
  rcases h with h | h
  · exact (far_of_precedes ha hb h).trans (le_abs_self _)
  · have hfar := far_of_precedes hb ha h
    rw [abs_sub_comm]
    exact le_trans (by linarith) (le_abs_self _)

/-!
## The tests

In the frame of the first box that inequality is the test along the direction, for its own axes and
for those of the second box.
-/

namespace Obb

/-- Boxes that are apart are far from each other as the first one sees them. -/
theorem farAlong_of_apart (hs : s.Rigid) (ha : a.Bordered) (hb : b.Bordered) {way : Vec3 ℝ}
    (hway : way.coords = s.turnᵀ *ᵥ ((place b t).center - (place a s).center).coords)
    {L : Fin 3 → ℝ} (hu : u.coords = s.turn *ᵥ L) (h : a.Apart s b t u gap) :
    Relative.FarAlong (s.turnᵀ * t.turn) a.extents.half b.extents.half way gap L := by
  have hfirst : s.turnᵀ *ᵥ u.coords = L := by
    rw [hu, mulVec_mulVec, hs.rotation.orthogonal, one_mulVec]
  have hsecond : t.turnᵀ *ᵥ u.coords = (s.turnᵀ * t.turn)ᵀ *ᵥ L := by
    rw [hu, mulVec_mulVec, transpose_mul, transpose_transpose]
  -- the way between the centers, seen along the direction of the gap
  have hcenters : u.dot (t.point b.extents.center) - u.dot (s.point a.extents.center) =
      way.coords ⬝ᵥ L := by
    calc u.dot (t.point b.extents.center) - u.dot (s.point a.extents.center) =
          u.coords ⬝ᵥ (t.point b.extents.center - s.point a.extents.center).coords := by
          rw [Vec3.dot_eq, Vec3.dot_eq, Vec3.coords_sub, dotProduct_sub]
      _ = ((place b t).center - (place a s).center).coords ⬝ᵥ (s.turn *ᵥ L) := by
          rw [dotProduct_comm, hu]
          rfl
      _ = way.coords ⬝ᵥ L := by rw [hway, dotProduct_mulVec, mulVec_transpose]
  have hfar := far_of_apart ha hb h
  rw [hfirst, hsecond, hcenters] at hfar
  exact hfar

/-- A gap along an axis of the first box is seen. -/
theorem not_intersects_of_apart_first (hs : s.Rigid) (ht : t.Rigid) (ha : a.Bordered)
    (hb : b.Bordered) (i : Axis) (h : a.Apart s b t ((place a s).axes.along i) gap) :
    (place a s).intersects (place b t) gap = false := by
  obtain ⟨way, hway, hrelative⟩ := relative_place hs ht a b
  have hu : ((place a s).axes.along i).coords = s.turn *ᵥ Pi.single i.index 1 := by
    rw [axes_place hs, Transform.coords_direction, Vec3.coords_unit]
  have hseparated := Relative.separatedByFirst_iff.2 ⟨i, farAlong_of_apart hs ha hb hway hu h⟩
  simp [intersects, hrelative, hseparated]

/-- A gap along an axis of the second box is seen. -/
theorem not_intersects_of_apart_second (hs : s.Rigid) (ht : t.Rigid) (ha : a.Bordered)
    (hb : b.Bordered) (j : Axis) (h : a.Apart s b t ((place b t).axes.along j) gap) :
    (place a s).intersects (place b t) gap = false := by
  obtain ⟨way, hway, hrelative⟩ := relative_place hs ht a b
  have hu :
      ((place b t).axes.along j).coords =
        s.turn *ᵥ ((s.turnᵀ * t.turn) *ᵥ Pi.single j.index 1) := by
    rw [axes_place ht, Transform.coords_direction, Vec3.coords_unit, mulVec_mulVec,
      ← Matrix.mul_assoc, hs.rotation.mul_transpose, Matrix.one_mul]
  have hR : IsRotation (s.turnᵀ * t.turn) := hs.rotation.transpose.mul ht.rotation
  have hseparated := (Relative.separatedBySecond_iff hR).2 ⟨j, farAlong_of_apart hs ha hb hway hu h⟩
  simp [intersects, hrelative, hseparated]

end Obb

/-!
## Enclosing boxes

A gap along an axis of the world is found by the comparison of the enclosing boxes, with which the
test starts.
-/

namespace Extents

variable {e : Extents ℝ} {q : Vec3 ℝ}

/-- Each coordinate of a corner is at one of the two bounds. -/
theorem coords_of_mem_corners (h : q ∈ e.corners) (i : Fin 3) :
    q.coords i = e.min.coords i ∨ q.coords i = e.max.coords i := by
  simp only [corners, List.mem_cons, List.not_mem_nil, or_false] at h
  rcases h with rfl | rfl | rfl | rfl | rfl | rfl | rfl | rfl <;> fin_cases i <;> simp [Vec3.coords]

/-- Where each step of a fold has the value of one of its arguments,
the result has the value of something. -/
theorem foldl_picks {β γ : Type} {op : β → β → β} {f : β → γ}
    (hop : ∀ a b, f (op a b) = f a ∨ f (op a b) = f b) (a : β) (bs : List β) :
    ∃ b ∈ a :: bs, f (bs.foldl op a) = f b := by
  induction bs generalizing a with
  | nil => exact ⟨a, List.mem_cons_self, rfl⟩
  | cons c bs ih =>
    obtain ⟨b, hb, hvalue⟩ := ih (op a c)
    rcases List.mem_cons.1 hb with rfl | hb
    · rcases hop a c with hpick | hpick
      · exact ⟨a, List.mem_cons_self, hvalue.trans hpick⟩
      · exact ⟨c, by simp, hvalue.trans hpick⟩
    · exact ⟨b, by simp [hb], hvalue⟩

/-- The region around points begins and ends, along each axis, at some of them. -/
theorem exists_around (e : Extents ℝ) (p : Vec3 ℝ) (ps : List (Vec3 ℝ)) (i : Fin 3) :
    (∃ q ∈ p :: ps, (e.around (p :: ps)).min.coords i = q.coords i) ∧
      ∃ q ∈ p :: ps, (e.around (p :: ps)).max.coords i = q.coords i := by
  constructor
  · refine foldl_picks (f := (·.coords i)) (fun q r => ?_) p ps
    rw [Vec3.coords_lower]
    exact min_choice _ _
  · refine foldl_picks (f := (·.coords i)) (fun q r => ?_) p ps
    rw [Vec3.coords_upper]
    exact max_choice _ _

/-- The enclosing box of a placed box begins and ends, along each axis,
at the images of some corners. -/
theorem exists_image (e : Extents ℝ) (t : Transform ℝ) (i : Fin 3) :
    (∃ c ∈ e.corners, (e.image t).min.coords i = (t.point c).coords i) ∧
      ∃ c ∈ e.corners, (e.image t).max.coords i = (t.point c).coords i := by
  have hcorner : ∀ {x}, (∃ q ∈ e.corners.map t.point, x = q.coords i) →
      ∃ c ∈ e.corners, x = (t.point c).coords i := by
    rintro x ⟨q, hq, hx⟩
    obtain ⟨c, hc, rfl⟩ := List.mem_map.1 hq
    exact ⟨c, hc, hx⟩
  obtain ⟨hmin, hmax⟩ := exists_around e _ _ i
  exact ⟨hcorner hmin, hcorner hmax⟩

end Extents

theorem LocalBox.Bordered.holds_corner (ha : a.Bordered) {c : Vec3 ℝ} (hc : c ∈ a.extents.corners) :
    a.Holds c := by
  intro i
  have hle := ha.low_le_high i
  rcases Extents.coords_of_mem_corners hc i with h | h
  · rw [h, LocalBox.coords_min_extents]
    exact ⟨le_rfl, hle⟩
  · rw [h, LocalBox.coords_max_extents]
    exact ⟨hle, le_rfl⟩

/-- Boxes that precede one another along an axis of the world have enclosing boxes that do. -/
theorem image_le_image (ha : a.Bordered) (hb : b.Bordered) (i : Axis)
    (h : a.Precedes s b t (.unit i) gap) :
    (a.extents.image s).max.coords i.index + gap ≤ (b.extents.image t).min.coords i.index := by
  obtain ⟨p, hp, hmax⟩ := (a.extents.exists_image s i.index).2
  obtain ⟨q, hq, hmin⟩ := (b.extents.exists_image t i.index).1
  have hgap := h p q (ha.holds_corner hp) (hb.holds_corner hq)
  rw [Vec3.unit_dot, Vec3.unit_dot] at hgap
  rwa [hmax, hmin]

/-- A gap along an axis of the world is seen. -/
theorem Obb.not_intersects_of_apart_unit (ha : a.Bordered) (hb : b.Bordered) (i : Axis)
    (h : a.Apart s b t (.unit i) gap) : (place a s).intersects (place b t) gap = false := by
  have hbounds : (a.extents.image s).overlaps (b.extents.image t) gap = false := by
    refine Bool.eq_false_iff.2 fun hoverlaps => ?_
    obtain ⟨hab, hba⟩ := Extents.overlaps_iff.1 hoverlaps i.index
    rcases h with h | h
    · exact absurd hba (not_lt.2 (image_le_image ha hb i h))
    · exact absurd hab (not_lt.2 (image_le_image hb ha i h))
  unfold intersects
  rw [show (place a s).bounds.intersects (place b t).bounds gap = false from hbounds]
  rfl

end Far

/-! ## The test -/

/--
**The box test finds every common interior point, and no overlap across a gap.** The boxes may be
stretched and mirrored, have any border that does not move a face inwards, and be placed by any
motions. A point inside both of them makes them intersect; and they do not intersect when, seen
along an axis of either box or of the world, they are the tolerance apart.
-/
theorem Obb.intersects_of_common_and_gaps {a b : LocalBox ℝ} (ha : a.Bordered) (hb : b.Bordered)
    {s t : Transform ℝ} (hs : s.Motion) (ht : t.Motion) {epsilon : ℝ} (hepsilon : 0 ≤ epsilon) :
    ((∃ p q, a.HoldsInside p ∧ b.HoldsInside q ∧ s.point p = t.point q) →
        (place a s).intersects (place b t) epsilon = true) ∧
      ∀ i u, u = (place a s).axes.along i ∨ u = (place b t).axes.along i ∨ u = .unit i →
        a.Apart s b t u epsilon → (place a s).intersects (place b t) epsilon = false := by
  constructor
  · rintro ⟨p, q, hp, hq, hcommon⟩
    have hfirst := (interior_place hs.rigid).2 ⟨p, LocalBox.inside_extents.2 hp, rfl⟩
    have hsecond := (interior_place ht.rigid).2 ⟨q, LocalBox.inside_extents.2 hq, hcommon.symm⟩
    exact intersects_of_interior hs.rigid ht.rigid hfirst hsecond hepsilon
  · rintro i u (rfl | rfl | rfl) hapart
    · exact not_intersects_of_apart_first hs.rigid ht.rigid ha hb i hapart
    · exact not_intersects_of_apart_second hs.rigid ht.rigid ha hb i hapart
    · exact not_intersects_of_apart_unit ha hb i hapart

/-- A cube about the origin, mirrored and with a border. -/
noncomputable def LocalBox.mirrored : LocalBox ℝ where
  min := .splat (-1)
  max := .splat 1
  scale := ⟨1, -1, 1⟩
  border := .splat 1

theorem LocalBox.mirrored_low (i : Fin 3) : mirrored.low i = -2 := by
  fin_cases i <;> norm_num [mirrored, low, Vec3.coords, Vec3.splat]

theorem LocalBox.mirrored_high (i : Fin 3) : mirrored.high i = 2 := by
  fin_cases i <;> norm_num [mirrored, high, Vec3.coords, Vec3.splat]

/-- A factor may be negative where the border is not. -/
theorem LocalBox.bordered_mirrored : mirrored.Bordered := by
  intro i
  fin_cases i <;> simp [mirrored, Vec3.coords, Vec3.splat]

/-- All of the mirrored box is within two of the origin. -/
theorem LocalBox.abs_coords_le_two {p : Vec3 ℝ} (h : mirrored.Holds p) (i : Fin 3) :
    |p.coords i| ≤ 2 := by
  have hi := h i
  rw [mirrored_low, mirrored_high] at hi
  exact abs_le.2 hi

/-- Turned about the upright axis by one radian, and moved along the first axis. -/
noncomputable def Transform.turnedAt (x : ℝ) : Transform ℝ :=
  (translation ⟨x, 0, 0⟩).comp (rotationAbout (.unit .z) 1)

/-- A turn by one radian, and then a way along an axis, is a motion. -/
theorem Transform.motion_turnedAt (x : ℝ) : Motion (turnedAt x) :=
  .comp (.translation _) (.rotation (by simp [Vec3.unit, Vec3.dot]) 1)

/-- Where the turn takes a point, in coordinates. -/
theorem Transform.point_turnedAt (x : ℝ) (p : Vec3 ℝ) :
    (turnedAt x).point p =
      ⟨Real.cos 1 * p.x - Real.sin 1 * p.y + x, Real.sin 1 * p.x + Real.cos 1 * p.y, p.z⟩ := by
  ext <;>
    simp [turnedAt, translation, rotationAbout, comp, ofColumns, point, image, Vec4.xyz,
      Vec3.unit, Vec3.splat, Scalar.sin, Scalar.cos]
  ring

/-- The cubes overlap with their centers at one place,
and no longer with the turned one moved away. -/
theorem Obb.intersects_of_common_and_gaps_turned :
    LocalBox.mirrored.Bordered ∧ (∀ x, (Transform.turnedAt x).Motion) ∧
      (place .mirrored .identity).intersects (place .mirrored (.turnedAt 0)) (1 : ℝ) = true ∧
      (place .mirrored .identity).intersects (place .mirrored (.turnedAt 10)) (1 : ℝ) = false := by
  have hsettled := fun x : ℝ => intersects_of_common_and_gaps LocalBox.bordered_mirrored
    LocalBox.bordered_mirrored Transform.motion_identity (Transform.motion_turnedAt x) zero_le_one
  refine ⟨LocalBox.bordered_mirrored, Transform.motion_turnedAt, ?_, ?_⟩
  · -- the centers coincide at 0
    have hinside : LocalBox.mirrored.HoldsInside (.splat 0) := by
      intro i
      rw [LocalBox.mirrored_low, LocalBox.mirrored_high]
      fin_cases i <;> simp [Vec3.coords, Vec3.splat]
    refine (hsettled 0).1 ⟨.splat 0, .splat 0, hinside, hinside, ?_⟩
    rw [Transform.point_identity, Transform.point_turnedAt]
    simp [Vec3.splat]
  · -- the one cube ends at 2, and however it is turned the other begins at 6 or later
    refine (hsettled 10).2 .x (.unit .x) (.inr (.inr rfl)) (.inl fun p q hp hq => ?_)
    have hshort : ∀ {k x : ℝ}, |k| ≤ 1 → |x| ≤ 2 → |k * x| ≤ 2 := by
      intro k x hk hx
      rw [abs_mul]
      exact (mul_le_of_le_one_left (abs_nonneg x) hk).trans hx
    have hend := (abs_le.1 (LocalBox.abs_coords_le_two hp 0)).2
    have hcos := (abs_le.1 (hshort (Real.abs_cos_le_one 1) (LocalBox.abs_coords_le_two hq 0))).1
    have hsin := (abs_le.1 (hshort (Real.abs_sin_le_one 1) (LocalBox.abs_coords_le_two hq 1))).2
    rw [Transform.point_identity, Transform.point_turnedAt, Vec3.unit_dot, Vec3.unit_dot]
    show p.coords 0 + 1 ≤ Real.cos 1 * q.coords 0 - Real.sin 1 * q.coords 1 + 10
    linarith

end SceneGuard
