import SceneGuard.Proofs.Geometry.Rays

/-!
# Shells of boxes

A shell has twelve triangles, two for each face of a box (`Extents.IsShell`). Half a face is a
corner with its two neighbours, so its points are known by how far they are on the way to these
(`Extents.share`). Main statements:

* `Extents.meanAt_halfFace` — the weights of a point in half a face are its shares;
* `Extents.onFace_iff` — the two halves make up the face, and meet on the diagonal alone
  (`Extents.not_holdsWithin_both`, `Extents.holds_of_onDiagonal`);
* `Extents.abs_rayDet_halfFace` — what the ray test divides by is the area of the face, times the
  slope of the ray.
-/

namespace SceneGuard

open Obb.Relative (others)

/-- An axis and the two others are all of them. -/
theorem Axis.forall_iff (i : Axis) {P : Axis → Prop} :
    (∀ j, P j) ↔ P i ∧ P (others i).1 ∧ P (others i).2 := by
  constructor
  · exact fun h => ⟨h _, h _, h _⟩
  · rintro ⟨hi, hj, hk⟩ (_ | _ | _) <;> cases i <;> assumption

theorem Axis.others_ne (i : Axis) :
    (others i).1 ≠ i ∧ (others i).2 ≠ i ∧ (others i).1 ≠ (others i).2 := by
  cases i <;> decide

namespace Extents

section Shell

variable {α : Type}

/-- Where a region ends along an axis, on its upper or on its lower side. -/
def bound (e : Extents α) (i : Axis) (upper : Bool) : α :=
  if upper then e.max.along i else e.min.along i

/-- The corner on the given sides. -/
def corner (e : Extents α) (s : Axis → Bool) : Vec3 α := Vec3.ofAxes fun i => e.bound i (s i)

/-- From a corner to its neighbour along an axis. -/
def across (s : Axis → Bool) (i : Axis) : Axis → Bool := Function.update s i (!s i)

/-- Half of a face across an axis: a corner and its two neighbours on the face. -/
def halfFace (e : Extents α) (i : Axis) (s : Axis → Bool) : Triangle α :=
  ⟨e.corner s, e.corner (across s (others i).1), e.corner (across s (others i).2)⟩

/-- The corner of the face across an axis that is opposite to another one. -/
def opposite (i : Axis) (s : Axis → Bool) : Axis → Bool :=
  across (across s (others i).1) (others i).2

/-- A face, split along the diagonal that leaves out the given corner. -/
def face (e : Extents α) (i : Axis) (s : Axis → Bool) : List (Triangle α) :=
  [e.halfFace i s, e.halfFace i (opposite i s)]

/-- The six faces, each split along the diagonal that leaves out the corner `apex` tells for it. -/
def shell (e : Extents α) (apex : Axis → Bool → Axis → Bool) : List (Triangle α) :=
  Axis.all.flatMap fun i => [false, true].flatMap fun upper =>
    e.face i (Function.update (apex i upper) i upper)

/-- A shell has both halves of each face, split at the diagonal that was chosen for it. -/
theorem mem_shell {e : Extents α} {apex : Axis → Bool → Axis → Bool} {t : Triangle α} :
    t ∈ e.shell apex ↔ ∃ i upper, t ∈ e.face i (Function.update (apex i upper) i upper) := by
  simp only [shell, List.mem_flatMap]
  constructor
  · rintro ⟨i, -, upper, -, ht⟩
    exact ⟨i, upper, ht⟩
  · rintro ⟨i, upper, ht⟩
    exact ⟨i, by cases i <;> decide, upper, by cases upper <;> decide, ht⟩

/-- Every triangle of a shell is half a face. -/
theorem exists_halfFace {e : Extents α} {apex : Axis → Bool → Axis → Bool} {t : Triangle α}
    (ht : t ∈ e.shell apex) : ∃ i s, t = e.halfFace i s := by
  obtain ⟨i, upper, ht⟩ := mem_shell.1 ht
  rcases List.mem_pair.1 ht with rfl | rfl
  · exact ⟨i, _, rfl⟩
  · exact ⟨i, _, rfl⟩

end Shell

/-- A mesh of the twelve halves of the faces: split along either diagonal, and the triangles, as
well as the corners of each, in any order. -/
def IsShell (e : Extents ℝ) (mesh : List (Triangle ℝ)) : Prop :=
  ∃ apex halves, List.Forall₂ Triangle.Reordered (e.shell apex) halves ∧ halves.Perm mesh

theorem isShell_shell (e : Extents ℝ) (apex : Axis → Bool → Axis → Bool) :
    e.IsShell (e.shell apex) :=
  ⟨apex, _, List.forall₂_same.2 fun _ _ => List.Perm.refl _, List.Perm.refl _⟩

/-- Crossings are counted alike however corners are listed. -/
theorem crossings_of_reordered {ts ts' : List (Triangle ℝ)}
    (h : List.Forall₂ Triangle.Reordered ts ts') (p : Vec3 ℝ) :
    Mesh.crossings p ts' = Mesh.crossings p ts := by
  unfold Mesh.crossings
  induction h with
  | nil => rfl
  | cons hhead _ ih => rw [List.countP_cons, List.countP_cons, ih, hhead.hitByRay_eq]

/-- Each triangle is there with its corners listed in another order. -/
theorem exists_reordered {ts ts' : List (Triangle ℝ)} (h : List.Forall₂ Triangle.Reordered ts ts') :
    ∀ t ∈ ts, ∃ t' ∈ ts', t'.Reordered t := by
  induction h with
  | nil => simp
  | cons hhead _ ih => exact List.forall_mem_cons.2 ⟨⟨_, .head _, hhead.symm⟩, fun t ht =>
      (ih t ht).imp fun t' ht' => ⟨.tail _ ht'.1, ht'.2⟩⟩

/-- A shell has the crossings and the triangles of the one with the faces in order. -/
theorem IsShell.exists_apex {e : Extents ℝ} {mesh : List (Triangle ℝ)} (h : e.IsShell mesh) :
    ∃ apex, (∀ p, Mesh.crossings p mesh = Mesh.crossings p (e.shell apex)) ∧
      ∀ t ∈ e.shell apex, ∃ t' ∈ mesh, t'.Reordered t := by
  obtain ⟨apex, halves, hhalves, hmesh⟩ := h
  refine ⟨apex, fun p => ?_, fun t ht => ?_⟩
  · exact (hmesh.countP_eq _).symm.trans (crossings_of_reordered hhalves p)
  · obtain ⟨t', ht', hreordered⟩ := exists_reordered hhalves t ht
    exact ⟨t', hmesh.mem_iff.1 ht', hreordered⟩

variable {e : Extents ℝ} {i j : Axis} {s : Axis → Bool} {upper : Bool} {x : Vec3 ℝ} {u v : ℝ}

/-- Every edge has a length. -/
def Solid (e : Extents ℝ) : Prop := ∀ i : Axis, e.min.along i < e.max.along i

/-- To be contained is to be between the bounds along each axis. -/
theorem contains_iff_along : e.contains x = true ↔
    ∀ j : Axis, e.min.along j ≤ x.along j ∧ x.along j ≤ e.max.along j := by
  simp only [contains_iff, Vec3.along_eq, Axis.index_surjective.forall]

/-- To be inside is to be strictly between them. -/
theorem inside_iff_along :
    e.Inside x ↔ ∀ j : Axis, e.min.along j < x.along j ∧ x.along j < e.max.along j := by
  simp only [Inside, Vec3.along_eq, Axis.index_surjective.forall]

/-!
## Places on a face

The shares of a point are two numbers between zero and one that tell how far it has gone from the
corner of a half face to each of the two neighbours. Both halves and the diagonal are inequalities
between them.
-/

/-- Across an axis is the other bound of it. -/
theorem across_self (s : Axis → Bool) (i : Axis) : across s i i = !s i := Function.update_self ..

/-- Along the other axes the choice stays. -/
theorem across_of_ne (h : j ≠ i) (s : Axis → Bool) :
    across s i j = s j := Function.update_of_ne h ..

/-- The opposite corner of a face is on the same face. -/
theorem opposite_self (i : Axis) (s : Axis → Bool) : opposite i s i = s i := by
  obtain ⟨hj, hk, -⟩ := Axis.others_ne i
  rw [opposite, across_of_ne hk.symm, across_of_ne hj.symm]

/-- A corner is at the bound that was chosen, along each axis. -/
theorem along_corner (e : Extents ℝ) (s : Axis → Bool) (j : Axis) :
    (e.corner s).along j = e.bound j (s j) :=
  Vec3.along_ofAxes _ j

/-- The two bounds of a solid region differ. -/
theorem bound_ne (h : e.Solid) (j : Axis) (upper : Bool) :
    e.bound j (!upper) - e.bound j upper ≠ 0 := by
  have hlt := h j
  cases upper
  · exact sub_ne_zero.2 hlt.ne'
  · exact sub_ne_zero.2 hlt.ne

/-- How far a point is on the way from a corner to its neighbour along an axis. -/
noncomputable def share (e : Extents ℝ) (s : Axis → Bool) (j : Axis) (x : Vec3 ℝ) : ℝ :=
  (x.along j - e.bound j (s j)) / (e.bound j (!s j) - e.bound j (s j))

/-- The share of a point along an edge tells where it is along that axis, and is told by it. -/
theorem eq_share_iff (h : e.Solid) : u = e.share s j x ↔
    x.along j = e.bound j (s j) + u * (e.bound j (!s j) - e.bound j (s j)) := by
  rw [share, eq_div_iff (bound_ne h j _), eq_sub_iff_add_eq, add_comm, eq_comm]

/-- From the other side the way is the rest. -/
theorem share_not (h : e.Solid) {s' : Axis → Bool} (hs : s' j = !s j) :
    e.share s' j x = 1 - e.share s j x := by
  refine ((eq_share_iff h).2 ?_).symm
  have hx := (eq_share_iff h (s := s) (j := j) (x := x)).1 rfl
  rw [hs, Bool.not_not]
  linear_combination hx

/-- In half a face the weights of the two edges are the shares along them. -/
theorem meanAt_halfFace (h : e.Solid) : (e.halfFace i s).MeanAt u v x ↔
    x.along i = e.bound i (s i) ∧ u = e.share s (others i).1 x ∧ v = e.share s (others i).2 x := by
  obtain ⟨hj, hk, hjk⟩ := Axis.others_ne i
  rw [Triangle.meanAt_iff, Axis.forall_iff i, eq_share_iff h, eq_share_iff h]
  simp only [halfFace, along_corner, across_self, across_of_ne hj.symm, across_of_ne hk.symm,
    across_of_ne hjk, across_of_ne hjk.symm, sub_self, mul_zero, add_zero]

/-- So what holds of the weights holds of the shares, and the point is on the face. -/
theorem mixes_halfFace (h : e.Solid) {R : ℝ → Prop} :
    (e.halfFace i s).Mixes R x ↔ x.along i = e.bound i (s i) ∧
    R (1 - e.share s (others i).1 x - e.share s (others i).2 x) ∧
      R (e.share s (others i).1 x) ∧ R (e.share s (others i).2 x) := by
  simp only [Triangle.mixes_iff, meanAt_halfFace h]
  constructor
  · rintro ⟨_, _, huv, hu, hv, hx, rfl, rfl⟩
    exact ⟨hx, huv, hu, hv⟩
  · rintro ⟨hx, huv, hu, hv⟩
    exact ⟨_, _, huv, hu, hv, hx, rfl, rfl⟩

/-- The half of a face at a corner: what is no farther from there than the diagonal. -/
theorem holds_halfFace (h : e.Solid) : (e.halfFace i s).Holds x ↔ x.along i = e.bound i (s i) ∧
    e.share s (others i).1 x + e.share s (others i).2 x ≤ 1 ∧
      0 ≤ e.share s (others i).1 x ∧ 0 ≤ e.share s (others i).2 x := by
  rw [Triangle.holds_iff_mixes, mixes_halfFace h, sub_sub, sub_nonneg]

/-- Within half a face: on this side of the diagonal and off both edges. -/
theorem holdsWithin_halfFace (h : e.Solid) :
    (e.halfFace i s).HoldsWithin x ↔ x.along i = e.bound i (s i) ∧
    e.share s (others i).1 x + e.share s (others i).2 x < 1 ∧
      0 < e.share s (others i).1 x ∧ 0 < e.share s (others i).2 x := by
  rw [Triangle.holdsWithin_iff_mixes, mixes_halfFace h, sub_sub, sub_pos]

/-- From the opposite corner the shares are what is left. -/
theorem share_opposite (h : e.Solid) (s : Axis → Bool) (x : Vec3 ℝ) :
    e.share (opposite i s) (others i).1 x = 1 - e.share s (others i).1 x ∧
      e.share (opposite i s) (others i).2 x = 1 - e.share s (others i).2 x := by
  obtain ⟨-, -, hjk⟩ := Axis.others_ne i
  refine ⟨share_not h ?_, share_not h ?_⟩
  · rw [opposite, across_of_ne hjk, across_self]
  · rw [opposite, across_self, across_of_ne hjk.symm]

/-- The way from the lower side, or what is left of it. -/
theorem share_eq_or (h : e.Solid) (s : Axis → Bool) (j : Axis) (x : Vec3 ℝ) :
    e.share s j x = (x.along j - e.min.along j) / (e.max.along j - e.min.along j) ∨
      e.share s j x = 1 - (x.along j - e.min.along j) / (e.max.along j - e.min.along j) := by
  cases hs : s j
  · left
    rw [share, hs]
    rfl
  · exact .inr (share_not h (s := fun _ => false) hs)

/-- A share from zero to one is a place between the bounds. -/
theorem share_bounds (h : e.Solid) : (0 ≤ e.share s j x ∧ e.share s j x ≤ 1) ↔
    e.min.along j ≤ x.along j ∧ x.along j ≤ e.max.along j := by
  have hwidth : 0 < e.max.along j - e.min.along j := sub_pos.2 (h j)
  have hlower : 0 ≤ (x.along j - e.min.along j) / (e.max.along j - e.min.along j) ↔
      e.min.along j ≤ x.along j := by
    rw [le_div_iff₀ hwidth, zero_mul, sub_nonneg]
  have hupper : (x.along j - e.min.along j) / (e.max.along j - e.min.along j) ≤ 1 ↔
      x.along j ≤ e.max.along j := by
    rw [div_le_one hwidth, sub_le_sub_iff_right]
  rw [← hlower, ← hupper]
  rcases share_eq_or h s j x with hw | hw
  · rw [hw]
  · rw [hw, sub_nonneg, sub_le_self_iff, and_comm]

theorem share_bounds_strict (h : e.Solid) : (0 < e.share s j x ∧ e.share s j x < 1) ↔
    e.min.along j < x.along j ∧ x.along j < e.max.along j := by
  have hwidth : 0 < e.max.along j - e.min.along j := sub_pos.2 (h j)
  have hlower : 0 < (x.along j - e.min.along j) / (e.max.along j - e.min.along j) ↔
      e.min.along j < x.along j := by
    rw [lt_div_iff₀ hwidth, zero_mul, sub_pos]
  have hupper : (x.along j - e.min.along j) / (e.max.along j - e.min.along j) < 1 ↔
      x.along j < e.max.along j := by
    rw [div_lt_one hwidth, sub_lt_sub_iff_right]
  rw [← hlower, ← hupper]
  rcases share_eq_or h s j x with hw | hw
  · rw [hw]
  · rw [hw, sub_pos, sub_lt_self_iff, and_comm]

/-- A point of the region on a face across an axis. -/
def OnFace (e : Extents ℝ) (i : Axis) (upper : Bool) (x : Vec3 ℝ) : Prop :=
  x.along i = e.bound i upper ∧ e.contains x = true

/-- A face consists of its halves, whichever the diagonal is. -/
theorem onFace_iff (h : e.Solid) : e.OnFace i (s i) x ↔
    (e.halfFace i s).Holds x ∨ (e.halfFace i (opposite i s)).Holds x := by
  have hbound : x.along i = e.bound i (s i) → e.min.along i ≤ x.along i ∧
      x.along i ≤ e.max.along i := by
    intro hx
    have hlt := h i
    rw [hx]
    cases s i
    · exact ⟨le_rfl, hlt.le⟩
    · exact ⟨hlt.le, le_rfl⟩
  obtain ⟨hfirst, hsecond⟩ := share_opposite (i := i) h s x
  rw [OnFace, contains_iff_along, Axis.forall_iff i, ← share_bounds h (s := s) (j := (others i).1),
    ← share_bounds h (s := s) (j := (others i).2), holds_halfFace h, holds_halfFace h,
    opposite_self, hfirst, hsecond]
  -- the diagonal is where the shares sum to one, and it tells the halves apart
  constructor
  · rintro ⟨hx, -, ⟨hu, hu'⟩, hv, hv'⟩
    rcases le_total (e.share s (others i).1 x + e.share s (others i).2 x) 1 with hle | hle
    · exact .inl ⟨hx, hle, hu, hv⟩
    · exact .inr ⟨hx, by linarith, by linarith, by linarith⟩
  · rintro (⟨hx, huv, hu, hv⟩ | ⟨hx, huv, hu, hv⟩)
    · exact ⟨hx, hbound hx, ⟨hu, by linarith⟩, hv, by linarith⟩
    · exact ⟨hx, hbound hx, ⟨by linarith, by linarith⟩, by linarith, by linarith⟩

/-- The shell covers the faces. -/
theorem OnFace.exists_mem_shell (h : e.Solid) (hx : e.OnFace i upper x)
    (apex : Axis → Bool → Axis → Bool) : ∃ t ∈ e.shell apex, t.Holds x := by
  have hhalves := onFace_iff h (i := i) (s := Function.update (apex i upper) i upper) (x := x)
  rw [Function.update_self] at hhalves
  rcases hhalves.1 hx with hheld | hheld
  · exact ⟨_, mem_shell.2 ⟨i, upper, .head _⟩, hheld⟩
  · exact ⟨_, mem_shell.2 ⟨i, upper, .tail _ (.head _)⟩, hheld⟩

/-- No triangle of the shell has a point of the inside. -/
theorem Inside.not_holds (h : e.Solid) (hx : e.Inside x) {apex : Axis → Bool → Axis → Bool} :
    ∀ t ∈ e.shell apex, ¬t.Holds x := by
  intro t ht hheld
  obtain ⟨i, s, rfl⟩ := exists_halfFace ht
  have hplane := ((holds_halfFace h).1 hheld).1
  obtain ⟨hlow, hhigh⟩ := inside_iff_along.1 hx i
  cases hs : s i
  · rw [hs] at hplane
    exact hlow.ne' hplane
  · rw [hs] at hplane
    exact hhigh.ne hplane

/-- A point within one half is on no edge of the face. -/
theorem bounds_of_holdsWithin (h : e.Solid) (hx : (e.halfFace i s).HoldsWithin x) (hj : j ≠ i) :
    e.min.along j < x.along j ∧ x.along j < e.max.along j := by
  obtain ⟨-, huv, hu, hv⟩ := (holdsWithin_halfFace h).1 hx
  refine (Axis.forall_iff (P := fun j => j ≠ i → e.min.along j < x.along j ∧
    x.along j < e.max.along j) i).2
    ⟨fun hne => absurd rfl hne, fun _ => ?_, fun _ => ?_⟩ j hj
  · exact (share_bounds_strict h).1 ⟨hu, by linarith⟩
  · exact (share_bounds_strict h).1 ⟨hv, by linarith⟩

/-- The point is as far from a corner as the diagonal of the face. -/
def OnDiagonal (e : Extents ℝ) (i : Axis) (s : Axis → Bool) (x : Vec3 ℝ) : Prop :=
  e.share s (others i).1 x + e.share s (others i).2 x = 1

/-- Both halves of a face have the diagonal in common. -/
theorem onDiagonal_opposite (h : e.Solid) :
    e.OnDiagonal i (opposite i s) x ↔ e.OnDiagonal i s x := by
  obtain ⟨hfirst, hsecond⟩ := share_opposite (i := i) h s x
  unfold OnDiagonal
  rw [hfirst, hsecond]
  constructor <;> intro hdiagonal <;> linarith

/-- A point of half a face that is on no edge of the face and not on the diagonal is within. -/
theorem holdsWithin_of_holds (h : e.Solid) (hx : (e.halfFace i s).Holds x)
    (hbounds : ∀ j, j ≠ i → e.min.along j < x.along j ∧ x.along j < e.max.along j)
    (hdiagonal : ¬e.OnDiagonal i s x) : (e.halfFace i s).HoldsWithin x := by
  obtain ⟨hj, hk, -⟩ := Axis.others_ne i
  obtain ⟨hplane, hsum, -⟩ := (holds_halfFace h).1 hx
  exact (holdsWithin_halfFace h).2 ⟨hplane, hsum.lt_of_ne hdiagonal,
    ((share_bounds_strict h).2 (hbounds _ hj)).1, ((share_bounds_strict h).2 (hbounds _ hk)).1⟩

/-- A point of a face on its diagonal belongs to both halves. -/
theorem holds_of_onDiagonal (h : e.Solid) (hx : e.OnFace i (s i) x)
    (hdiagonal : e.OnDiagonal i s x) : (e.halfFace i s).Holds x := by
  obtain ⟨hplane, hheld⟩ := hx
  have hshare : ∀ j, 0 ≤ e.share s j x :=
    fun j => ((share_bounds h).2 (contains_iff_along.1 hheld j)).1
  exact (holds_halfFace h).2 ⟨hplane, hdiagonal.le, hshare _, hshare _⟩

/-- No point is within both halves of a face. -/
theorem not_holdsWithin_both (h : e.Solid) (hx : (e.halfFace i s).HoldsWithin x) :
    ¬(e.halfFace i (opposite i s)).HoldsWithin x := by
  intro hx'
  obtain ⟨-, huv, -⟩ := (holdsWithin_halfFace h).1 hx
  obtain ⟨-, huv', -⟩ := (holdsWithin_halfFace h).1 hx'
  obtain ⟨hfirst, hsecond⟩ := share_opposite (i := i) h s x
  rw [hfirst, hsecond] at huv'
  linarith

/-!
## The size of a face

The determinant of the ray test is twice the area of the half face times the slope of the ray
against it, which is why small faces fall under the cutoff.
-/

/-- The bounds along an axis are as far apart as the region is long. -/
theorem abs_bound (h : e.Solid) (j : Axis) (upper : Bool) :
    |e.bound j (!upper) - e.bound j upper| = e.max.along j - e.min.along j := by
  have hwidth := sub_pos.2 (h j)
  cases upper
  · exact abs_of_pos hwidth
  · exact (abs_sub_comm _ _).trans (abs_of_pos hwidth)

/-- The determinant of half a face: the area of the face times how much
the direction goes across it. -/
theorem abs_rayDet_halfFace (h : e.Solid) (i : Axis) (s : Axis → Bool) (d : Vec3 ℝ) :
    |(e.halfFace i s).rayDet d| = (e.max.along (others i).1 - e.min.along (others i).1) *
      (e.max.along (others i).2 - e.min.along (others i).2) * |d.along i| := by
  rw [← abs_bound h _ (s (others i).1), ← abs_bound h _ (s (others i).2), ← abs_mul,
    ← abs_mul, abs_eq_abs]
  have hsub : ∀ v w : Vec3 ℝ, v - w = ⟨v.x - w.x, v.y - w.y, v.z - w.z⟩ := fun _ _ => rfl
  cases i <;>
    simp only [Triangle.rayDet, Vec3.dot, Vec3.cross, Vec3.along, halfFace, corner, Vec3.ofAxes,
      across, others, ne_eq, reduceCtorEq, not_false_eq_true, Function.update_of_ne,
      Function.update_self, hsub, sub_self]
  · exact .inr (by ring)
  · exact .inl (by ring)
  · exact .inr (by ring)

end Extents

end SceneGuard
