import Mathlib.Data.List.Permutation
import Mathlib.Tactic.Module
import SceneGuard.Proofs.Geometry.Contact

/-!
# Rays against triangles

The test of a ray solves for the place on the line and for two weights in the triangle at once, each
as a quotient by one determinant (`Triangle.rayDet`). Main statements:

* `meet_iff` — where a line meets a plane, the three quotients are the only solution;
* `Triangle.hitByRay_iff` — so a ray hits exactly those triangles that have a point of it beyond its
  start, borders included, unless it counts as parallel;
* `Triangle.Reordered.hitByRay_eq` — and the order of the corners plays no part.
-/

namespace SceneGuard

open Matrix

/-- A line meets a plane that it is not parallel to at one place, given by quotients of volumes. -/
theorem meet_iff {e f d s : Fin 3 → ℝ} {u v τ : ℝ} (h : e ⬝ᵥ d ⨯₃ f ≠ 0) :
    s + τ • d = u • e + v • f ↔
    u * (e ⬝ᵥ d ⨯₃ f) = s ⬝ᵥ d ⨯₃ f ∧ v * (e ⬝ᵥ d ⨯₃ f) = d ⬝ᵥ s ⨯₃ e ∧
      τ * (e ⬝ᵥ d ⨯₃ f) = f ⬝ᵥ s ⨯₃ e := by
  constructor
  · intro hmeet
    -- the triple products with two equal factors vanish
    have hs : s = u • e + v • f - τ • d := eq_sub_of_add_eq hmeet
    have hturn : d ⬝ᵥ f ⨯₃ e = e ⬝ᵥ d ⨯₃ f := (triple_product_permutation e d f).symm
    have hback : f ⬝ᵥ d ⨯₃ e = -(e ⬝ᵥ d ⨯₃ f) := by
      rw [← hturn, triple_product_permutation, ← cross_anticomm, dotProduct_neg]
    refine ⟨?_, ?_, ?_⟩
    · simp [hs]
    · simp [hs, hturn]
    · simp [hs, hback]
  · rintro ⟨hu, hv, hτ⟩
    -- Cramer's rule, multiplied out so that nothing is divided
    have hvolumes : (e ⬝ᵥ d ⨯₃ f) • s = (s ⬝ᵥ d ⨯₃ f) • e + (d ⬝ᵥ s ⨯₃ e) • f -
        (f ⬝ᵥ s ⨯₃ e) • d := by
      funext i
      fin_cases i <;> simp [cross_apply, dotProduct, Fin.sum_univ_three] <;> ring
    refine smul_right_injective _ h ?_
    simp only [smul_add, hvolumes, ← hu, ← hv, ← hτ]
    module

theorem Vec3.along_ray (p d : Vec3 ℝ) (τ : ℝ) (i : Axis) :
    (p + d.scaled τ).along i = p.along i + d.along i * τ := by
  cases i <;> rfl

namespace Triangle

variable {t t' : Triangle ℝ} {p d x : Vec3 ℝ} {u v τ : ℝ} {R : ℝ → Prop}

/-!
## Weights

A point of a triangle is given by how far it has gone from the first corner along the two edges
there. The three weights of a mean are these two and what is left.
-/

/-- The point is the mean of the corners with weights `u` and `v` at the last two. -/
def MeanAt (t : Triangle ℝ) (u v : ℝ) (x : Vec3 ℝ) : Prop :=
  x.coords = (1 - u - v) • t.a.coords + u • t.b.coords + v • t.c.coords

/-- The point is one of the triangle and on none of its edges. -/
def HoldsWithin (t : Triangle ℝ) (x : Vec3 ℝ) : Prop :=
  ∃ k l m : ℝ, 0 < k ∧ 0 < l ∧ 0 < m ∧ k + l + m = 1 ∧
    x.coords = k • t.a.coords + l • t.b.coords + m • t.c.coords

/-- The point is a mean of the corners with weights of a certain kind. -/
def Mixes (t : Triangle ℝ) (R : ℝ → Prop) (x : Vec3 ℝ) : Prop :=
  ∃ k l m : ℝ, R k ∧ R l ∧ R m ∧ k + l + m = 1 ∧
    x.coords = k • t.a.coords + l • t.b.coords + m • t.c.coords

/-- A triangle has the mixtures of its corners. -/
theorem holds_iff_mixes : t.Holds x ↔ t.Mixes (0 ≤ ·) x := .rfl

/-- The mixtures with a share of each corner lie off the edges. -/
theorem holdsWithin_iff_mixes : t.HoldsWithin x ↔ t.Mixes (0 < ·) x := .rfl

/-- Two weights tell the third, which is what they leave. -/
theorem mixes_iff : t.Mixes R x ↔ ∃ u v, R (1 - u - v) ∧ R u ∧ R v ∧ t.MeanAt u v x := by
  constructor
  · rintro ⟨k, l, m, hk, hl, hm, hsum, hx⟩
    obtain rfl : k = 1 - l - m := by linarith
    exact ⟨l, m, hk, hl, hm, hx⟩
  · rintro ⟨u, v, hk, hu, hv, hx⟩
    exact ⟨1 - u - v, u, v, hk, hu, hv, by ring, hx⟩

/-- Axis by axis: from the first corner, so far along each of the two edges there. -/
theorem meanAt_iff : t.MeanAt u v x ↔ ∀ i : Axis, x.along i =
    t.a.along i + u * (t.b.along i - t.a.along i) + v * (t.c.along i - t.a.along i) := by
  simp only [Vec3.along_eq, ← Axis.index_surjective.forall (p := fun i => x.coords i =
    t.a.coords i + u * (t.b.coords i - t.a.coords i) + v * (t.c.coords i - t.a.coords i))]
  refine funext_iff.trans (forall_congr' fun i => ?_)
  simp only [Pi.add_apply, Pi.smul_apply, smul_eq_mul]
  constructor <;> intro h <;> linear_combination h

/-!
## The ray test

What the code computes are the three quotients of Cramer's rule, and what it asks of them are the
borders of the triangle and the side of the start. Only the cutoff for parallel rays goes beyond
that.
-/

/-- What the test of a ray divides by: the volume between its direction
and two edges of the triangle. -/
noncomputable def rayDet (t : Triangle ℝ) (d : Vec3 ℝ) : ℝ := (t.b - t.a).dot (d.cross (t.c - t.a))

/-- What the test of a ray computes: two weights in the triangle and the place on the ray. -/
def Computes (t : Triangle ℝ) (p d : Vec3 ℝ) (u v τ : ℝ) : Prop :=
  u = (p - t.a).dot (d.cross (t.c - t.a)) * (1 / t.rayDet d) ∧
    v = d.dot ((p - t.a).cross (t.b - t.a)) * (1 / t.rayDet d) ∧
    τ = (t.c - t.a).dot ((p - t.a).cross (t.b - t.a)) * (1 / t.rayDet d)

/-- The test passes where no weight, the third one included, is negative,
and the place is beyond the start. -/
theorem hitByRay_iff_computes : t.hitByRay p d = true ↔ parallelDet ≤ |t.rayDet d| ∧
    ∃ u v τ, t.Computes p d u v τ ∧ 0 ≤ 1 - u - v ∧ 0 ≤ u ∧ 0 ≤ v ∧ 0 < τ := by
  have hdet : (t.b - t.a).dot (d.cross (t.c - t.a)) = t.rayDet d := rfl
  have habs : ∀ y : ℝ, Scalar.abs y = |y| := fun _ => rfl
  unfold hitByRay Computes
  simp only [hdet, habs, Scalar.within]
  generalize (p - t.a).dot (d.cross (t.c - t.a)) * (1 / t.rayDet d) = u,
    d.dot ((p - t.a).cross (t.b - t.a)) * (1 / t.rayDet d) = v,
    (t.c - t.a).dot ((p - t.a).cross (t.b - t.a)) * (1 / t.rayDet d) = τ
  simp only [Bool.if_false_left, Bool.and_eq_true, Bool.not_eq_true',
    decide_eq_false_iff_not, not_lt, decide_eq_true_eq, existsAndEq, and_true, true_and,
    Bool.not_eq_false, not_or]
  -- the code also bounds `u` and `v` by one, which the bound on their sum implies
  refine and_congr_right fun _ => ⟨?_, ?_⟩
  · rintro ⟨⟨hu, -⟩, ⟨hv, huv⟩, hτ⟩
    exact ⟨by linarith, hu, hv, hτ⟩
  · rintro ⟨huv, hu, hv, hτ⟩
    exact ⟨⟨hu, by linarith⟩, ⟨hv, by linarith⟩, hτ⟩

/-- What it computes is where the line meets the plane. -/
theorem meanAt_ray_iff (h : t.rayDet d ≠ 0) :
    t.MeanAt u v (p + d.scaled τ) ↔ t.Computes p d u v τ := by
  rw [Computes, mul_one_div, mul_one_div, mul_one_div, eq_div_iff h, eq_div_iff h, eq_div_iff h]
  simp only [rayDet, Vec3.dot_eq, Vec3.coords_cross] at h ⊢
  rw [← meet_iff h]
  have hray : (p + d.scaled τ).coords = p.coords + τ • d.coords := by
    funext i
    rw [Vec3.coords_add, Pi.add_apply, Vec3.coords_scaled, mul_comm]
    rfl
  simp only [MeanAt, hray, Vec3.coords_sub]
  -- the same equation, with the first corner on either side
  constructor <;> intro hmeet
  · rw [sub_add_eq_add_sub, hmeet]
    module
  · rw [← sub_add_cancel p.coords t.a.coords, add_right_comm, hmeet]
    module

theorem parallelDet_pos : 0 < (parallelDet : ℝ) := by norm_num [parallelDet]

/-- A ray hits a triangle that has a point of it beyond its start,
unless it counts as parallel to it. -/
theorem hitByRay_iff : t.hitByRay p d = true ↔
    parallelDet ≤ |t.rayDet d| ∧ ∃ τ, 0 < τ ∧ t.Holds (p + d.scaled τ) := by
  rw [hitByRay_iff_computes]
  refine and_congr_right fun hdet => ?_
  have hne : t.rayDet d ≠ 0 := abs_pos.1 (parallelDet_pos.trans_le hdet)
  simp only [holds_iff_mixes, mixes_iff, meanAt_ray_iff hne]
  constructor
  · rintro ⟨u, v, τ, hmean, huv, hu, hv, hτ⟩
    exact ⟨τ, hτ, u, v, huv, hu, hv, hmean⟩
  · rintro ⟨τ, hτ, u, v, huv, hu, hv, hmean⟩
    exact ⟨u, v, τ, hmean, huv, hu, hv, hτ⟩

/-- The ray meets the triangle, if at all, on none of its edges and without
counting as parallel to it. -/
def MetClearly (t : Triangle ℝ) (p d : Vec3 ℝ) : Prop :=
  ∀ τ, 0 < τ → t.Holds (p + d.scaled τ) → parallelDet ≤ |t.rayDet d| ∧
    t.HoldsWithin (p + d.scaled τ)

/-- A ray that meets a triangle clearly, if at all, hits exactly what it meets. -/
theorem MetClearly.hitByRay_iff (h : t.MetClearly p d) :
    t.hitByRay p d = true ↔ ∃ τ, 0 < τ ∧ t.Holds (p + d.scaled τ) := by
  refine Triangle.hitByRay_iff.trans (and_iff_right_of_imp ?_)
  rintro ⟨τ, hτ, hmet⟩
  exact (h τ hτ hmet).1

/-!
## The order of the corners

Swapping two corners exchanges weights and turns the sign of the determinant, of which only the size
is asked. So six orders come down to two swaps.
-/

/-- The same corners, in any order. -/
def Reordered (t t' : Triangle ℝ) : Prop := [t.a, t.b, t.c].Perm [t'.a, t'.b, t'.c]

namespace Reordered

/-- An order of the corners can be taken back. -/
theorem symm (h : t.Reordered t') : t'.Reordered t := List.Perm.symm h

/-- What survives an exchange of two neighbours holds in every order. -/
theorem induct {P : Triangle ℝ → Prop} (h : t.Reordered t')
    (front : ∀ a b c, P ⟨a, b, c⟩ → P ⟨b, a, c⟩) (back : ∀ a b c, P ⟨a, b, c⟩ → P ⟨a, c, b⟩)
    (ht : P t) : P t' := by
  obtain ⟨a, b, c⟩ := t
  obtain ⟨a', b', c'⟩ := t'
  have hmem : [a', b', c'] ∈ [a, b, c].permutations' := List.mem_permutations'.2 (symm h)
  simp only [List.permutations', List.permutations'Aux, List.flatMap_cons, List.flatMap_nil,
    List.map_cons, List.map_nil, List.append_nil, List.cons_append, List.nil_append, List.mem_cons,
    List.cons.injEq, and_true, List.not_mem_nil, or_false] at hmem
  -- six orders, each reached by the two swaps
  obtain ⟨rfl, rfl, rfl⟩ | ⟨rfl, rfl, rfl⟩ | ⟨rfl, rfl, rfl⟩ | ⟨rfl, rfl, rfl⟩ | ⟨rfl, rfl, rfl⟩ |
    ⟨rfl, rfl, rfl⟩ := hmem
  · exact ht
  · exact front _ _ _ ht
  · exact back _ _ _ (front _ _ _ ht)
  · exact back _ _ _ ht
  · exact front _ _ _ (back _ _ _ ht)
  · exact back _ _ _ (front _ _ _ (back _ _ _ ht))

theorem mixes (h : t.Reordered t') (ht : t.Mixes R x) : t'.Mixes R x := by
  refine h.induct (P := fun t => t.Mixes R x) ?_ ?_ ht
  · rintro a b c ⟨k, l, m, hk, hl, hm, hsum, hx⟩
    exact ⟨l, k, m, hl, hk, hm, by linarith, by rw [hx]; abel⟩
  · rintro a b c ⟨k, l, m, hk, hl, hm, hsum, hx⟩
    exact ⟨k, m, l, hk, hm, hl, by linarith, by rw [hx]; abel⟩

/-- A triangle has the same points however its corners are listed. -/
theorem holds (h : t.Reordered t') (ht : t.Holds x) : t'.Holds x :=
  holds_iff_mixes.2 (h.mixes (holds_iff_mixes.1 ht))

theorem holdsWithin (h : t.Reordered t') (ht : t.HoldsWithin x) : t'.HoldsWithin x :=
  holdsWithin_iff_mixes.2 (h.mixes (holdsWithin_iff_mixes.1 ht))

/-- Listing the corners anew changes no more than a sign of the determinant. -/
theorem abs_rayDet (h : t.Reordered t') (d : Vec3 ℝ) : |t'.rayDet d| = |t.rayDet d| := by
  -- an exchange of two corners turns the triangle over
  have hswap : ∀ a b c, rayDet ⟨b, a, c⟩ d = -rayDet ⟨a, b, c⟩ d ∧
      rayDet ⟨a, c, b⟩ d = -rayDet ⟨a, b, c⟩ d := by
    intro a b c
    simp only [rayDet, Vec3.dot_eq, Vec3.coords_cross, Vec3.coords_sub, dotProduct,
      Fin.sum_univ_three, cross_apply, Pi.sub_apply, cons_val_zero, cons_val_one, cons_val]
    constructor <;> ring
  refine h.induct (P := fun t' => |t'.rayDet d| = |t.rayDet d|) ?_ ?_ rfl
  · rintro a b c habs
    rw [(hswap a b c).1, abs_neg, habs]
  · rintro a b c habs
    rw [(hswap a b c).2, abs_neg, habs]

/-- What a ray meets clearly does not depend on how corners are listed. -/
theorem metClearly (h : t.Reordered t') (ht : t.MetClearly p d) : t'.MetClearly p d := by
  intro τ hτ hmet
  obtain ⟨hdet, hwithin⟩ := ht τ hτ (h.symm.holds hmet)
  exact ⟨(h.abs_rayDet d).symm ▸ hdet, h.holdsWithin hwithin⟩

/-- The test of a ray does not see in which order the corners come. -/
theorem hitByRay_eq (h : t.Reordered t') (p d : Vec3 ℝ) : t'.hitByRay p d = t.hitByRay p d := by
  rw [Bool.eq_iff_iff, hitByRay_iff, hitByRay_iff, h.abs_rayDet]
  exact and_congr_right fun _ => exists_congr fun _ => and_congr_right fun _ =>
    ⟨h.symm.holds, h.holds⟩

end Reordered

end Triangle

end SceneGuard
