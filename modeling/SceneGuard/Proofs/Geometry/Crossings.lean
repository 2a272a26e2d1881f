import Mathlib.Data.Fintype.Lattice
import SceneGuard.Proofs.Geometry.Shells

/-!
# Points inside a shell

The ray of the test rises along every axis, so it enters a box through a lower face and leaves it
through an upper one. Main statements:

* `Extents.exists_lower_iff`, `Extents.exists_upper_iff` — a ray that comes to a box leaves it, and
  has entered it unless it started past the lower sides;
* `Extents.countP_shell` — each of the two is counted once, where the ray meets no edge and no
  diagonal;
* `Mesh.contains_iff_inside` — an odd count then tells the points inside from those outside;
* `Extents.Leaves.countP_of_onDiagonal`, `Mesh.crossings_of_tiny` — but through a diagonal a ray is
  counted as leaving twice, and a tiny box is not seen at all.
-/

namespace SceneGuard

open Obb.Relative (others)

theorem Axis.index_injective : Function.Injective Axis.index := by
  rintro (_ | _ | _) (_ | _ | _) h <;> first | rfl | cases h

/-- There are three axes, and so a least value along them. -/
theorem Axis.exists_least (f : Axis → ℝ) : ∃ i, ∀ j, f i ≤ f j := by
  have : Finite Axis := .of_injective _ Axis.index_injective
  have : Nonempty Axis := ⟨.x⟩
  exact Finite.exists_min f

theorem Axis.exists_greatest (f : Axis → ℝ) : ∃ i, ∀ j, f j ≤ f i := by
  obtain ⟨i, hi⟩ := Axis.exists_least (-f)
  exact ⟨i, fun j => neg_le_neg_iff.1 (hi j)⟩

open scoped Classical in
/-- Of axes that are all the same there is one or none. -/
theorem Axis.count_unique {P : Axis → Prop} (h : ∀ i j, P i → P j → i = j) :
    (if ∃ i, P i then 1 else 0) =
    (if P .x then 1 else 0) + (if P .y then 1 else 0) + (if P .z then 1 else 0) := by
  have hexists : (∃ i, P i) ↔ P .x ∨ P .y ∨ P .z := by
    constructor
    · rintro ⟨_ | _ | _, hi⟩
      exacts [.inl hi, .inr (.inl hi), .inr (.inr hi)]
    · rintro (hi | hi | hi) <;> exact ⟨_, hi⟩
  have hxy := h .x .y
  have hxz := h .x .z
  have hyz := h .y .z
  rw [if_congr hexists rfl rfl]
  grind

namespace Extents

variable {e : Extents ℝ} {i j : Axis} {s : Axis → Bool} {upper : Bool} {p d x : Vec3 ℝ} {τ τ' : ℝ}
  {apex : Axis → Bool → Axis → Bool}

/-- The ray from `p` meets a face beyond its start. -/
def FaceMet (e : Extents ℝ) (p d : Vec3 ℝ) (i : Axis) (upper : Bool) : Prop :=
  ∃ τ, 0 < τ ∧ e.OnFace i upper (p + d.scaled τ)

/-!
## Entry and exit

All components of the direction are positive, so along each axis the ray passes the lower bound
before the upper one. It enters by the lower face that it passes last and leaves by the upper face
that it passes first.
-/

/-- The place where a ray passes a side. -/
theorem along_ray_passing (hd : 0 < d.along i) (b : ℝ) :
    (p + d.scaled ((b - p.along i) / d.along i)).along i = b := by
  rw [Vec3.along_ray, mul_div_cancel₀ _ hd.ne']
  ring

/-- Along an axis on which the ray rises, later is farther. -/
theorem along_ray_le_iff (hd : 0 < d.along i) :
    (p + d.scaled τ).along i ≤ (p + d.scaled τ').along i ↔ τ ≤ τ' := by
  rw [Vec3.along_ray, Vec3.along_ray, add_le_add_iff_left, mul_le_mul_iff_right₀ hd]

theorem along_ray_lt_iff (hd : 0 < d.along i) :
    (p + d.scaled τ).along i < (p + d.scaled τ').along i ↔ τ < τ' :=
  lt_iff_lt_of_le_iff_le (along_ray_le_iff hd)

theorem along_ray_injective (hd : 0 < d.along i) :
    Function.Injective fun τ => (p + d.scaled τ).along i :=
  fun _ _ h => le_antisymm ((along_ray_le_iff hd).1 h.le) ((along_ray_le_iff hd).1 h.ge)

/-- The ray passes a bound when the quotient says so: not yet before that. -/
theorem passing_le_iff (hd : 0 < d.along i) (b : ℝ) :
    (b - p.along i) / d.along i ≤ τ ↔ b ≤ (p + d.scaled τ).along i := by
  rw [Vec3.along_ray, div_le_iff₀ hd, sub_le_iff_le_add', mul_comm]

theorem le_passing_iff (hd : 0 < d.along i) (b : ℝ) :
    τ ≤ (b - p.along i) / d.along i ↔ (p + d.scaled τ).along i ≤ b := by
  rw [Vec3.along_ray, le_div_iff₀ hd, le_sub_iff_add_le', mul_comm]

/-- A rising ray with some of the region beyond its start leaves that through an upper face. -/
theorem exists_upper_iff (hd : ∀ i : Axis, 0 < d.along i) :
    (∃ i, e.FaceMet p d i true) ↔ ∃ τ, 0 < τ ∧ e.contains (p + d.scaled τ) = true := by
  constructor
  · rintro ⟨i, τ, hτ, -, hx⟩
    exact ⟨τ, hτ, hx⟩
  · rintro ⟨τ, hτ, hx⟩
    have hx := contains_iff_along.1 hx
    -- of the places where the ray passes the upper sides, the first one
    obtain ⟨i, hfirst⟩ := Axis.exists_least fun i => (e.max.along i - p.along i) / d.along i
    have hle : τ ≤ (e.max.along i - p.along i) / d.along i := (le_passing_iff (hd i) _).2 (hx i).2
    refine ⟨i, _, hτ.trans_le hle, along_ray_passing (hd i) _,
      contains_iff_along.2 fun j => ⟨?_, ?_⟩⟩
    · exact (hx j).1.trans ((along_ray_le_iff (hd j)).2 hle)
    · exact (le_passing_iff (hd j) _).1 (hfirst j)

/-- And it has entered through a lower face if it starts before one of the lower sides. -/
theorem exists_lower_iff (hd : ∀ i : Axis, 0 < d.along i) : (∃ i, e.FaceMet p d i false) ↔
    (∃ τ, 0 < τ ∧ e.contains (p + d.scaled τ) = true) ∧ ∃ i : Axis, p.along i < e.min.along i := by
  constructor
  · rintro ⟨i, τ, hτ, hi, hx⟩
    refine ⟨⟨τ, hτ, hx⟩, i, ?_⟩
    have hrise : 0 < d.along i * τ := mul_pos (hd i) hτ
    have hi : p.along i + d.along i * τ = e.min.along i := (Vec3.along_ray p d τ i).symm.trans hi
    linarith
  · rintro ⟨⟨τ, hτ, hx⟩, k, hk⟩
    have hx := contains_iff_along.1 hx
    -- of the places where the ray passes the lower sides, the last one
    obtain ⟨i, hlast⟩ := Axis.exists_greatest fun i => (e.min.along i - p.along i) / d.along i
    have hle : (e.min.along i - p.along i) / d.along i ≤ τ := (passing_le_iff (hd i) _).2 (hx i).1
    have hpos : 0 < (e.min.along i - p.along i) / d.along i :=
      (div_pos (sub_pos.2 hk) (hd k)).trans_le (hlast k)
    refine ⟨i, _, hpos, along_ray_passing (hd i) _, contains_iff_along.2 fun j => ⟨?_, ?_⟩⟩
    · exact (passing_le_iff (hd j) _).1 (hlast j)
    · exact ((along_ray_le_iff (hd j)).2 hle).trans (hx j).2

/-- A point off the faces is inside if a rising ray from it comes to the
region without having to enter it. -/
theorem inside_iff (hd : ∀ i : Axis, 0 < d.along i) (hoff : ∀ i upper, ¬e.OnFace i upper p) :
    e.Inside p ↔
    (∃ τ, 0 < τ ∧ e.contains (p + d.scaled τ) = true) ∧ ¬∃ i : Axis, p.along i < e.min.along i := by
  have hstart : ∀ i, (p + d.scaled 0).along i = p.along i := fun i => by
    rw [Vec3.along_ray, mul_zero, add_zero]
  constructor
  · intro hp
    have hp := inside_iff_along.1 hp
    -- leaving through the first upper face on the way, the ray is still between the others
    obtain ⟨i, hfirst⟩ := Axis.exists_least fun i => (e.max.along i - p.along i) / d.along i
    have hpos : 0 < (e.max.along i - p.along i) / d.along i := div_pos (sub_pos.2 (hp i).2) (hd i)
    refine ⟨⟨_, hpos, contains_iff_along.2 fun j => ⟨?_, (le_passing_iff (hd j) _).1 (hfirst j)⟩⟩,
      ?_⟩
    · have hrise := (along_ray_le_iff (p := p) (hd j)).2 hpos.le
      rw [hstart] at hrise
      exact (hp j).1.le.trans hrise
    · rintro ⟨j, hj⟩
      exact lt_asymm hj (hp j).1
  · rintro ⟨⟨τ, hτ, hx⟩, hlow⟩
    have hlow := fun i : Axis => not_lt.1 (not_exists.1 hlow i)
    -- the ray only rises, so its start is below where it meets the box
    have hhigh : ∀ i : Axis, p.along i < e.max.along i := by
      intro i
      have hrise : 0 < d.along i * τ := mul_pos (hd i) hτ
      have hx := (contains_iff_along.1 hx i).2
      rw [Vec3.along_ray] at hx
      linarith
    have hheld : e.contains p = true := contains_iff_along.2 fun i => ⟨hlow i, (hhigh i).le⟩
    refine inside_iff_along.2 fun i => ⟨(hlow i).lt_of_ne fun heq => ?_, hhigh i⟩
    -- a start level with a lower face would lie on that face
    exact hoff i false ⟨heq.symm, hheld⟩

/-!
## Counting

Where the ray keeps clear of edges and diagonals, a face that is met has exactly one of its halves
met, and of the lower and the upper faces one each at most.
-/

/-- The ray meets none of the triangles on an edge, or counting as parallel to it. -/
def Clear (e : Extents ℝ) (apex : Axis → Bool → Axis → Bool) (p d : Vec3 ℝ) : Prop :=
  ∀ t ∈ e.shell apex, t.MetClearly p d

/-- A point where the ray clears the edges of a face lies strictly between the other bounds. -/
theorem bounds_of_onFace (h : e.Solid) (hclear : ∀ t ∈ e.face i s, t.MetClearly p d) (hτ : 0 < τ)
    (hx : e.OnFace i (s i) (p + d.scaled τ)) (hj : j ≠ i) :
    e.min.along j < (p + d.scaled τ).along j ∧ (p + d.scaled τ).along j < e.max.along j := by
  rcases (onFace_iff h).1 hx with hx | hx
  · exact bounds_of_holdsWithin h (hclear _ (.head _) τ hτ hx).2 hj
  · exact bounds_of_holdsWithin h (hclear _ (.tail _ (.head _)) τ hτ hx).2 hj

open scoped Classical in
/-- A face that is met is counted once. -/
theorem countP_face (h : e.Solid) (hd : 0 < d.along i)
    (hclear : ∀ t ∈ e.face i s, t.MetClearly p d) :
    (e.face i s).countP (·.hitByRay p d) = if e.FaceMet p d i (s i) then 1 else 0 := by
  have hfirst := hclear (e.halfFace i s) (.head _)
  have hsecond := hclear (e.halfFace i (opposite i s)) (.tail _ (.head _))
  have hmet : e.FaceMet p d i (s i) ↔ (e.halfFace i s).hitByRay p d = true ∨
      (e.halfFace i (opposite i s)).hitByRay p d = true := by
    rw [hfirst.hitByRay_iff, hsecond.hitByRay_iff, ← exists_or]
    exact exists_congr fun τ => (and_congr_right fun _ => onFace_iff h).trans and_or_left
  have hboth :
      ¬((e.halfFace i s).hitByRay p d = true ∧
        (e.halfFace i (opposite i s)).hitByRay p d = true) := by
    rw [hfirst.hitByRay_iff, hsecond.hitByRay_iff]
    rintro ⟨⟨τ, hτ, hx⟩, τ', hτ', hx'⟩
    -- the ray meets the plane of the face once, so both halves would be met at one point
    have hsame : τ = τ' := by
      have hplane := ((holds_halfFace h).1 hx).1
      have hplane' := ((holds_halfFace h).1 hx').1
      rw [opposite_self, ← hplane] at hplane'
      exact along_ray_injective hd hplane'.symm
    subst hsame
    exact not_holdsWithin_both h (hfirst τ hτ hx).2 (hsecond τ hτ hx').2
  rw [face, List.countP_cons, List.countP_cons, List.countP_nil, if_congr hmet rfl rfl]
  grind

/-- A rising ray that meets a face on none of its edges meets no other face on that side. -/
theorem OnFace.eq_of_faceMet (hd : ∀ i : Axis, 0 < d.along i)
    (hx : e.OnFace i upper (p + d.scaled τ))
    (hbounds : ∀ k, k ≠ i → e.min.along k < (p + d.scaled τ).along k ∧
      (p + d.scaled τ).along k < e.max.along k) (hj : e.FaceMet p d j upper) : j = i := by
  obtain ⟨τ', hτ', hj, hx'⟩ := hj
  by_contra hne
  obtain ⟨hlow, hhigh⟩ := hbounds j hne
  obtain ⟨hlow', hhigh'⟩ := contains_iff_along.1 hx' i
  -- one face would be met before the other and, by the second axis, after it
  cases upper
  · have hbefore : τ' < τ := (along_ray_lt_iff (hd j)).1 (hj.trans_lt hlow)
    exact not_le.2 hbefore ((along_ray_le_iff (hd i)).1 (hx.1.trans_le hlow'))
  · have hafter : τ < τ' := (along_ray_lt_iff (hd j)).1 (hhigh.trans_eq hj.symm)
    exact not_le.2 hafter ((along_ray_le_iff (hd i)).1 (hhigh'.trans_eq hx.1.symm))

/-- No two upper faces are met, and no two lower ones. -/
theorem FaceMet.unique (h : e.Solid) (hd : ∀ i : Axis, 0 < d.along i) (hclear : e.Clear apex p d)
    (hi : e.FaceMet p d i upper) (hj : e.FaceMet p d j upper) : i = j := by
  obtain ⟨τ, hτ, hx⟩ := hj
  refine hx.eq_of_faceMet hd (fun k hk => ?_) hi
  refine bounds_of_onFace h (fun t ht => hclear t (mem_shell.2 ⟨j, upper, ht⟩)) hτ ?_ hk
  rwa [Function.update_self]

open scoped Classical in
/-- The ray is counted at the face where it enters and at the face where it leaves. -/
theorem countP_shell (h : e.Solid) (hd : ∀ i : Axis, 0 < d.along i) (hclear : e.Clear apex p d) :
    (e.shell apex).countP (·.hitByRay p d) =
      (if ∃ i, e.FaceMet p d i false then 1 else 0) + if ∃ i, e.FaceMet p d i true
        then 1 else 0 := by
  have hface : ∀ i upper, (e.face i (Function.update (apex i upper) i upper)).countP
    (·.hitByRay p d) =
      if e.FaceMet p d i upper then 1 else 0 := by
    intro i upper
    rw [countP_face h (hd i) fun t ht => hclear t (mem_shell.2 ⟨i, upper, ht⟩),
      Function.update_self]
  rw [Axis.count_unique fun _ _ => FaceMet.unique h hd hclear,
    Axis.count_unique fun _ _ => FaceMet.unique h hd hclear]
  simp only [shell, Axis.all, List.flatMap_cons, List.flatMap_nil, List.countP_append,
    List.countP_nil, hface]
  ring

/-!
## Rays from inside

A ray from inside leaves through one face. Through the diagonal of that face it meets both halves,
which the test counts as two crossings, so the point is taken for one outside.
-/

/-- From a point inside, the ray leaves the region at `τ` through an upper face,
on none of its edges. -/
structure Leaves (e : Extents ℝ) (p d : Vec3 ℝ) (i : Axis) (τ : ℝ) : Prop where
  inside : e.Inside p
  after : 0 < τ
  side : (p + d.scaled τ).along i = e.max.along i
  between : ∀ j, j ≠ i → e.min.along j < (p + d.scaled τ).along j ∧
    (p + d.scaled τ).along j < e.max.along j

namespace Leaves

/-- Where the ray leaves the region it is on an upper face. -/
theorem onFace (hleaves : e.Leaves p d i τ) (h : e.Solid) : e.OnFace i true (p + d.scaled τ) := by
  refine ⟨hleaves.side, contains_iff_along.2 fun j => ?_⟩
  rcases eq_or_ne j i with rfl | hne
  · rw [hleaves.side]
    exact ⟨(h j).le, le_rfl⟩
  · exact ⟨(hleaves.between j hne).1.le, (hleaves.between j hne).2.le⟩

/-- That face is the only one that is met. -/
theorem eq_of_faceMet (hleaves : e.Leaves p d i τ) (h : e.Solid) (hd : ∀ i : Axis, 0 < d.along i)
    (hmet : e.FaceMet p d j upper) : j = i ∧ upper = true := by
  cases upper
  · obtain ⟨-, k, hk⟩ := (exists_lower_iff hd).1 ⟨j, hmet⟩
    exact absurd hk (not_lt.2 (inside_iff_along.1 hleaves.inside k).1.le)
  · exact ⟨(hleaves.onFace h).eq_of_faceMet hd hleaves.between hmet, rfl⟩

/-- Half of a face is met only there, and there only at `τ`. -/
theorem eq_of_holds (hleaves : e.Leaves p d i τ) (h : e.Solid) (hd : ∀ i : Axis, 0 < d.along i)
    (hτ' : 0 < τ') (hx : (e.halfFace j s).Holds (p + d.scaled τ')) :
    j = i ∧ s i = true ∧ τ' = τ := by
  obtain ⟨rfl, hs⟩ := hleaves.eq_of_faceMet h hd ⟨τ', hτ', (onFace_iff h).2 (.inl hx)⟩
  refine ⟨rfl, hs, along_ray_injective (p := p) (hd j) ?_⟩
  have hplane := ((holds_halfFace h).1 hx).1
  rw [hs] at hplane
  exact hplane.trans hleaves.side.symm

/-- Off the diagonals the ray meets all of the shell clearly, if the face is large enough. -/
theorem clear (hleaves : e.Leaves p d i τ) (h : e.Solid) (hd : ∀ i : Axis, 0 < d.along i)
    (hdet : ∀ s, Triangle.parallelDet ≤ |(e.halfFace i s).rayDet d|)
    (hdiagonal : ¬e.OnDiagonal i (Function.update (apex i true) i true) (p + d.scaled τ)) :
    e.Clear apex p d := by
  have hhalf : ∀ j s, (j = i → s i = true → ¬e.OnDiagonal i s (p + d.scaled τ)) →
      (e.halfFace j s).MetClearly p d := by
    intro j s hoff τ' hτ' hx
    obtain ⟨rfl, hs, rfl⟩ := hleaves.eq_of_holds h hd hτ' hx
    exact ⟨hdet s, holdsWithin_of_holds h hx hleaves.between (hoff rfl hs)⟩
  -- of the halves, only those of the face the ray leaves by are met at all
  intro t ht
  obtain ⟨j, upper, ht⟩ := mem_shell.1 ht
  rcases List.mem_pair.1 ht with rfl | rfl
  · refine hhalf _ _ ?_
    rintro rfl hs
    rw [Function.update_self] at hs
    exact hs ▸ hdiagonal
  · refine hhalf _ _ ?_
    rintro rfl hs
    rw [opposite_self, Function.update_self] at hs
    exact hs ▸ mt (onDiagonal_opposite h).1 hdiagonal

/-- A ray that leaves through a diagonal is counted twice. -/
theorem countP_of_onDiagonal (hleaves : e.Leaves p d i τ) (h : e.Solid)
    (hd : ∀ i : Axis, 0 < d.along i)
    (hdet : ∀ s, Triangle.parallelDet ≤ |(e.halfFace i s).rayDet d|)
    (hdiagonal : e.OnDiagonal i (Function.update (apex i true) i true) (p + d.scaled τ)) :
    (e.shell apex).countP (·.hitByRay p d) = 2 := by
  -- both halves of the face it leaves by are met, and none of the others
  have hface : ∀ j upper, (e.face j (Function.update (apex j upper) j upper)).countP
    (·.hitByRay p d) =
      if j = i ∧ upper = true then 2 else 0 := by
    intro j upper
    split_ifs with hexit
    · obtain ⟨rfl, rfl⟩ := hexit
      have hface := hleaves.onFace h
      have hhit : ∀ s, s j = true → e.OnDiagonal j s (p + d.scaled τ) →
          (e.halfFace j s).hitByRay p d = true := fun s hs hdiagonal =>
        Triangle.hitByRay_iff.2 ⟨hdet s, τ, hleaves.after,
          holds_of_onDiagonal h (hs ▸ hface) hdiagonal⟩
      rw [face, List.countP_cons_of_pos, List.countP_cons_of_pos, List.countP_nil]
      · exact hhit
          _ (by rw [opposite_self, Function.update_self]) ((onDiagonal_opposite h).2 hdiagonal)
      · exact hhit _ (Function.update_self ..) hdiagonal
    · refine List.countP_eq_zero.2 fun t ht hhit => hexit ?_
      obtain ⟨-, τ', hτ', hx⟩ := Triangle.hitByRay_iff.1 hhit
      rcases List.mem_pair.1 ht with rfl | rfl
      · obtain ⟨rfl, hs, -⟩ := hleaves.eq_of_holds h hd hτ' hx
        exact ⟨rfl, by rwa [Function.update_self] at hs⟩
      · obtain ⟨rfl, hs, -⟩ := hleaves.eq_of_holds h hd hτ' hx
        exact ⟨rfl, by rwa [opposite_self, Function.update_self] at hs⟩
  simp only [shell, Axis.all, List.flatMap_cons, List.flatMap_nil, List.countP_append,
    List.countP_nil, hface]
  cases i <;> rfl

end Leaves

end Extents

namespace Mesh

variable {e : Extents ℝ} {mesh : List (Triangle ℝ)} {p : Vec3 ℝ}

/-- The direction in use rises along all three axes. -/
theorem rayDirection_pos (i : Axis) : 0 < (rayDirection : Vec3 ℝ).along i := by
  cases i <;> norm_num [rayDirection, Vec3.along]

/-!
## Cubes

The cubes from the origin on serve both witnesses below, the fair one and the one whose ray leaves
through a diagonal.
-/

/-- A cube at the origin. -/
noncomputable def cube (a : ℝ) : Extents ℝ := ⟨.splat 0, .splat a⟩

/-- On each face of the cube, the corner that its diagonal leaves out:
the diagonals start at the lowest corners. -/
def beside (i : Axis) (_ : Bool) (j : Axis) : Bool := decide (j = (others i).1)

/-- A cube with a positive edge is solid. -/
theorem solid_cube {a : ℝ} (ha : 0 < a) : (cube a).Solid := by
  rintro (_ | _ | _) <;> exact ha

/-- The diagonal of the first face of the unit cube is where the other two coordinates agree. -/
theorem onDiagonal_cube {x : Vec3 ℝ} :
    (cube 1).OnDiagonal .x (Function.update (beside .x true) .x true) x ↔
    x.y = x.z := by
  have hsum : (x.y - 1) / (0 - 1) + (x.z - 0) / (1 - 0) = 1 - x.y + x.z := by ring
  show (x.y - 1) / (0 - 1) + (x.z - 0) / (1 - 0) = 1 ↔ x.y = x.z
  rw [hsum]
  constructor <;> intro h <;> linarith

/-- No half face of the unit cube counts as parallel to the ray in use. -/
theorem parallelDet_le_cube (s : Axis → Bool) :
    Triangle.parallelDet ≤ |((cube 1).halfFace .x s).rayDet rayDirection| := by
  rw [Extents.abs_rayDet_halfFace (solid_cube one_pos)]
  norm_num [cube, others, Vec3.along, Vec3.splat, rayDirection, Triangle.parallelDet]

/-- From these points the ray leaves the cube through the upper face across the first axis. -/
theorem leaves_cube {y z : ℝ} (hy : 0 < y) (hy' : y + 0.20695 < 1) (hz : 0 < z)
    (hz' : z + 0.1313 < 1) : (cube 1).Leaves ⟨0.5642, y, z⟩ rayDirection .x (1 / 2) where
  inside := by
    refine Extents.inside_iff_along.2 ?_
    rintro (_ | _ | _)
    · norm_num [cube, Vec3.splat, Vec3.along]
    · exact ⟨hy, by simp only [cube, Vec3.splat, Vec3.along]; linarith⟩
    · exact ⟨hz, by simp only [cube, Vec3.splat, Vec3.along]; linarith⟩
  after := by norm_num
  side := by
    rw [Vec3.along_ray]
    norm_num [cube, Vec3.splat, Vec3.along, rayDirection]
  between := by
    rintro (_ | _ | _) hne
    · exact absurd rfl hne
    · rw [Vec3.along_ray]
      simp only [cube, Vec3.splat, Vec3.along, rayDirection]
      constructor <;> linarith
    · rw [Vec3.along_ray]
      simp only [cube, Vec3.splat, Vec3.along, rayDirection]
      constructor <;> linarith

/-!
## Meshes

A mesh is read as the shell of a box up to the order of its triangles and of their corners, neither
of which the ray test looks at.
-/

/-- A shell with edges of at most a millionth is not seen:
all of its triangles count as parallel. -/
theorem crossings_of_tiny (h : e.Solid) (hshell : e.IsShell mesh)
    (htiny : ∀ i : Axis, e.max.along i - e.min.along i ≤ 1e-6) (p : Vec3 ℝ) :
    crossings p mesh = 0 := by
  obtain ⟨apex, hcrossings, -⟩ := hshell.exists_apex
  rw [hcrossings]
  refine List.countP_eq_zero.2 fun t ht hhit => ?_
  obtain ⟨i, s, rfl⟩ := Extents.exists_halfFace ht
  have hdet := (Triangle.hitByRay_iff.1 hhit).1
  -- the determinant is the area of the face times one component of the direction
  have harea : (e.max.along (others i).1 - e.min.along (others i).1) *
      (e.max.along (others i).2 - e.min.along (others i).2) ≤ 1e-6 * 1e-6 := by
    have hwidth := (sub_pos.2 (h (others i).2)).le
    gcongr <;> apply htiny
  have hdirection : |(rayDirection : Vec3 ℝ).along i| < 1 := by
    cases i <;> norm_num [rayDirection, Vec3.along, abs_of_pos]
  rw [Extents.abs_rayDet_halfFace h] at hdet
  refine absurd hdet (not_le.2 ?_)
  calc (e.max.along (others i).1 - e.min.along (others i).1) *
        (e.max.along (others i).2 - e.min.along (others i).2) * |(rayDirection : Vec3 ℝ).along i|
      ≤ 1e-6 * 1e-6 * |(rayDirection : Vec3 ℝ).along i| := by gcongr
    _ < 1e-6 * 1e-6 * 1 := by gcongr
    _ = Triangle.parallelDet := by norm_num [Triangle.parallelDet]

/--
**A point is seen inside a box exactly when it is.** The box may be any that has a volume, its shell
may be split along any diagonals and listed in any order, and the point may be anywhere off the
shell. The ray from it must not meet an edge or a diagonal, though, and the triangles that it meets
must not be so small that it counts as parallel to them.
-/
theorem contains_iff_inside (h : e.Solid) (hshell : e.IsShell mesh) (hoff : ∀ t ∈ mesh, ¬t.Holds p)
    (hclear : ∀ t ∈ mesh, t.MetClearly p rayDirection) : contains mesh p = true ↔ e.Inside p := by
  obtain ⟨apex, hcrossings, hmem⟩ := hshell.exists_apex
  -- the mesh is the shell up to the order of corners, and all facts carry over
  have hclear : e.Clear apex p rayDirection := by
    intro t ht
    obtain ⟨t', ht', hreordered⟩ := hmem t ht
    exact hreordered.metClearly (hclear t' ht')
  have hoff : ∀ i upper, ¬e.OnFace i upper p := by
    intro i upper hp
    obtain ⟨t, ht, hheld⟩ := hp.exists_mem_shell h apex
    obtain ⟨t', ht', hreordered⟩ := hmem t ht
    exact hoff t' ht' (hreordered.symm.holds hheld)
  have hcount := (hcrossings p).trans (Extents.countP_shell h rayDirection_pos hclear)
  rw [Extents.exists_lower_iff rayDirection_pos,
    Extents.exists_upper_iff rayDirection_pos] at hcount
  rw [Extents.inside_iff rayDirection_pos hoff, contains, hcount, beq_iff_eq]
  -- two crossings where the ray enters from below, one from within, none where it misses
  by_cases hreached : ∃ τ, 0 < τ ∧ e.contains (p + (rayDirection : Vec3 ℝ).scaled τ) = true
  · by_cases hbefore : ∃ i : Axis, p.along i < e.min.along i
    · simp only [hreached, hbefore, and_self, if_true, not_true_eq_false, and_false, iff_false]
      decide
    · simp only [hreached, hbefore, and_false, if_true, if_false, not_false_eq_true, and_true]
  · simp only [hreached, false_and, if_false, iff_false]
    decide

/-- A cube is seen around a point that is nearer to one side. -/
theorem contains_iff_inside_cube :
    (cube 1).Solid ∧ (cube 1).IsShell ((cube 1).shell beside) ∧
      (∀ t ∈ (cube 1).shell beside, ¬t.Holds ⟨0.5642, 0.5, 0.5⟩) ∧
      (∀ t ∈ (cube 1).shell beside, t.MetClearly ⟨0.5642, 0.5, 0.5⟩ rayDirection) ∧
      contains ((cube 1).shell beside) ⟨0.5642, 0.5, 0.5⟩ = true := by
  have hsolid := solid_cube one_pos
  have hleaves : (cube 1).Leaves ⟨0.5642, 0.5, 0.5⟩ rayDirection .x (1 / 2) := by
    apply leaves_cube <;> norm_num
  have hoff : ∀ t ∈ (cube 1).shell beside, ¬t.Holds ⟨0.5642, 0.5, 0.5⟩ :=
    hleaves.inside.not_holds hsolid
  have hexit : ¬(0.5 + 0.4139 * (1 / 2) = (0.5 + 0.2626 * (1 / 2) : ℝ)) := by norm_num
  have hclear : (cube 1).Clear beside ⟨0.5642, 0.5, 0.5⟩ rayDirection :=
    hleaves.clear hsolid rayDirection_pos parallelDet_le_cube (mt onDiagonal_cube.1 hexit)
  exact ⟨hsolid, Extents.isShell_shell _ _, hoff, hclear,
    (contains_iff_inside hsolid (Extents.isShell_shell _ _) hoff hclear).2 hleaves.inside⟩

/-- From inside a cube, but through a diagonal: not seen inside.
And nor is the middle of a tiny cube. -/
theorem not_contains_iff_inside :
    ((cube 1).Solid ∧ (cube 1).IsShell ((cube 1).shell beside) ∧
      (∀ t ∈ (cube 1).shell beside, ¬t.Holds ⟨0.5642, 0.09305, 0.1687⟩) ∧
      (cube 1).Inside ⟨0.5642, 0.09305, 0.1687⟩ ∧
      contains ((cube 1).shell beside) ⟨0.5642, 0.09305, 0.1687⟩ = false) ∧
    (cube 1e-6).Solid ∧ (cube 1e-6).IsShell ((cube 1e-6).shell beside) ∧
      (∀ t ∈ (cube 1e-6).shell beside, ¬t.Holds (.splat 5e-7)) ∧
      (cube 1e-6).Inside (.splat 5e-7) ∧
        contains ((cube 1e-6).shell beside) (.splat 5e-7) = false := by
  constructor
  · have hsolid := solid_cube one_pos
    have hleaves : (cube 1).Leaves ⟨0.5642, 0.09305, 0.1687⟩ rayDirection .x (1 / 2) := by
      apply leaves_cube <;> norm_num
    -- the ray leaves by the upper x face, through a point of its diagonal
    have hexit : 0.09305 + 0.4139 * (1 / 2) = (0.1687 + 0.2626 * (1 / 2) : ℝ) := by norm_num
    have htwice : crossings ⟨0.5642, 0.09305, 0.1687⟩ ((cube 1).shell beside) = 2 :=
      hleaves.countP_of_onDiagonal hsolid rayDirection_pos parallelDet_le_cube
        (onDiagonal_cube.2 hexit)
    refine ⟨hsolid, Extents.isShell_shell _ _, hleaves.inside.not_holds hsolid, hleaves.inside, ?_⟩
    rw [contains, htwice]
    rfl
  · have hsolid : (cube 1e-6).Solid := solid_cube (by norm_num)
    have hinside : (cube 1e-6).Inside (.splat 5e-7) := by
      refine Extents.inside_iff_along.2 ?_
      rintro (_ | _ | _) <;> norm_num [cube, Vec3.splat, Vec3.along]
    -- too small a shell: no determinant passes the cutoff
    have hnone : crossings (.splat 5e-7) ((cube 1e-6).shell beside) = 0 := by
      refine crossings_of_tiny hsolid (Extents.isShell_shell _ _) ?_ _
      rintro (_ | _ | _) <;> norm_num [cube, Vec3.splat, Vec3.along]
    refine ⟨hsolid, Extents.isShell_shell _ _, hinside.not_holds hsolid, hinside, ?_⟩
    rw [contains, hnone]
    rfl

end Mesh

end SceneGuard
