import SceneGuard.Proofs.Geometry.Separation
import SceneGuard.Proofs.Speculation.Hits

/-!
# Overlaps

Over the reals two entities overlap when their placed default boxes have an interior point in common
(`View.Overlap`). Main statements:

* `not_overlap_of_neighbours` — a collision query that finds nothing is right: nothing at or below
  its entity overlaps anything outside the family, as far as that is a box;
* `Covers.of_avoiding`, `Covers.of_passing` — what one entity's change does to the boxes of the
  others;
* `clash_of_neighbours` — so a change that leads to no finding makes no two entities overlap.
-/

namespace SceneGuard

open Relation

/-!
## Shapes

The boxes of an entity are built around its origin, and then placed rigidly. So what holds of boxes
under rigid placements holds of whatever a query compares.
-/

namespace Surrogate

section Extents

variable (size scale border : Vec3 ℝ) (i : Fin 3)

/-- A box around the origin begins half its size below it, and the border. -/
theorem coords_min_boxAround : (boxAround size scale border).extents.min.coords i =
    -(|size.coords i * scale.coords i| / 2) - border.coords i := by
  show (Vec3.lower ((-size.scaled 0.5).times scale) ((size.scaled 0.5).times scale) - border).coords
    i = _
  have hhalf : |size.coords i * scale.coords i| / 2 = |size.coords i * scale.coords i / 2| := by
    rw [abs_div, abs_two]
  rw [hhalf, Vec3.coords_sub, Pi.sub_apply, Vec3.coords_lower, Vec3.coords_times, Vec3.coords_times,
    Vec3.coords_neg, Pi.neg_apply, neg_mul, Vec3.coords_scaled, abs_eq_max_neg,
    ← min_neg_neg, neg_neg]
  congr 2 <;> ring

theorem coords_max_boxAround : (boxAround size scale border).extents.max.coords i =
    |size.coords i * scale.coords i| / 2 + border.coords i := by
  show (Vec3.upper ((-size.scaled 0.5).times scale) ((size.scaled 0.5).times scale) + border).coords
    i = _
  have hhalf : |size.coords i * scale.coords i| / 2 = |size.coords i * scale.coords i / 2| := by
    rw [abs_div, abs_two]
  rw [hhalf, Vec3.coords_add, Pi.add_apply, Vec3.coords_upper, Vec3.coords_times, Vec3.coords_times,
    Vec3.coords_neg, Pi.neg_apply, neg_mul, Vec3.coords_scaled, abs_eq_max_neg, max_comm]
  congr 2 <;> ring

theorem coords_center_boxAround : (boxAround size scale border).extents.center.coords i = 0 := by
  unfold Extents.center
  rw [Vec3.coords_scaled, Vec3.coords_add, Pi.add_apply, coords_min_boxAround, coords_max_boxAround]
  ring

/-- The half extents are half the size and the border, whatever the signs of size and scale. -/
theorem coords_half_boxAround : (boxAround size scale border).extents.half.coords i =
    |size.coords i * scale.coords i| / 2 + border.coords i := by
  unfold Extents.half
  rw [Vec3.coords_scaled, Vec3.coords_sub, Pi.sub_apply, coords_min_boxAround, coords_max_boxAround]
  ring

end Extents

/-- The box of a size, a scale and a border reaches as far on either side. -/
theorem inside_boxAround {size scale border p : Vec3 ℝ} :
    (boxAround size scale border).extents.Inside p ↔
    ∀ i, |p.coords i| < |size.coords i * scale.coords i| / 2 + border.coords i := by
  refine forall_congr' fun i => ?_
  rw [coords_min_boxAround, coords_max_boxAround, abs_lt]
  constructor
  · rintro ⟨h₁, h₂⟩
    exact ⟨by linarith, h₂⟩
  · rintro ⟨h₁, h₂⟩
    exact ⟨by linarith, h₂⟩

/-- Every shape is a box about the origin with the entity's border,
no thinner than the default one. -/
theorem exists_shape (s : Surrogate ℝ) (extended : Bool) :
    ∃ size scale, s.shape extended = boxAround size scale s.border ∧
      ∀ i, |s.size.coords i * s.scale.coords i| ≤ |size.coords i * scale.coords i| := by
  unfold shape
  cases extended with
  | false => exact ⟨s.size, s.scale, rfl, fun _ => le_rfl⟩
  | true =>
    cases hshape : s.extendedShape? with
    | none => exact ⟨s.size, s.scale, rfl, fun _ => le_rfl⟩
    | some shape =>
      obtain ⟨minimum, _, hshape⟩ := Option.bind_eq_some_iff.1 hshape
      dsimp only at hshape
      split at hshape
      · cases hshape
        refine ⟨_, _, rfl, fun i => ?_⟩
        -- along each axis the greater of two extents is taken, which is the own one at least
        have hpick : ∀ own least : ℝ, own ≤ if own < least then least else own := by
          intro own least
          split_ifs with hlt
          · exact hlt.le
          · exact le_rfl
        have hextent : |s.size.coords i * s.scale.coords i| ≤
            (Vec3.zipWith (fun own least : ℝ => if own < least then least else own) s.extent
              minimum).coords i := by
          fin_cases i <;> exact hpick _ _
        have hone : (Vec3.splat 1 : Vec3 ℝ).coords i = 1 := by fin_cases i <;> rfl
        rw [hone, mul_one]
        exact hextent.trans (le_abs_self _)
      · cases hshape

/-- The inflated box holds what the default one does. -/
theorem inside_shape {s : Surrogate ℝ} {p : Vec3 ℝ} (h : s.defaultShape.extents.Inside p)
    (extended : Bool) : (s.shape extended).extents.Inside p := by
  obtain ⟨size, scale, hshape, hwide⟩ := s.exists_shape extended
  rw [hshape]
  refine inside_boxAround.2 fun i => (inside_boxAround.1 h i).trans_le ?_
  have hwide := hwide i
  linarith

end Surrogate

namespace View

variable {v w : View ℝ} {a b c x : EntityId} {y : Vec3 ℝ} {s t : Transform ℝ}
  {cur : Option EntityId}

/-- Wherever an entity stands, it is placed rigidly. -/
theorem Placed.rigid (h : v.Placed cur t) : t.Rigid := by
  induction h with
  | root => exact Transform.rigid_identity
  | under _ _ ih => exact ih.comp (Transform.rigid_ofPlacement _ _)

/-- Where the way up leads through the entity, everything moves along with it. -/
theorem Placed.of_passing (hother : ∀ c, c ≠ x → w.state c = v.state c) (hv : v.Placed (some x) s)
    (hw : w.Placed (some x) t) {u : Transform ℝ} (h : w.Placed (some c) u)
    (hreach : ReflTransGen w.ParentLink c x) :
    ∃ own : Transform ℝ, own.Affine ∧ u = t.comp own ∧ v.Placed (some c) (s.comp own) := by
  generalize hcur : some c = cur at h
  -- up to the entity the way is the same before and after, so `own` is composed along it
  induction h generalizing c with
  | root => cases hcur
  | @under d q u hq habove ih =>
    cases hcur
    by_cases hd : d = x
    · subst hd
      rw [(Placed.under hq habove).unique hw]
      exact ⟨.identity, Transform.rigid_identity.affine, (Transform.comp_identity t).symm,
        by rwa [Transform.comp_identity]⟩
    · rcases ReflTransGen.cases_head hreach with hcx | ⟨p, ⟨q', hq', hp⟩, hreach⟩
      · exact absurd hcx hd
      · rw [hq] at hq'
        cases hq'
        obtain ⟨own, hown, hu, hplaced⟩ := ih hreach hp.symm
        refine ⟨own.comp q.localTransform, hown.comp (Transform.rigid_ofPlacement _ _).affine, ?_,
          ?_⟩
        · rw [hu, Transform.comp_assoc]
        · rw [← Transform.comp_assoc]
          exact .under ((hother d hd).symm.trans hq) (hp ▸ hplaced)

/-!
## Covered points

When one entity changes, what is not below it stays where it is, together with the points it covers.
What is below moves along, and so do its points.
-/

/-- The point is in the placed default box of an entity, and not on a face of it. -/
def Covers (v : View ℝ) (id : EntityId) (x : Vec3 ℝ) : Prop :=
  ∃ box, v.worldBounds id false = .ok (some box) ∧ box.Interior x

/-- The placed default boxes of two entities have an interior point in common. -/
def Overlap (v : View ℝ) (a b : EntityId) : Prop := ∃ x, v.Covers a x ∧ v.Covers b x

/-- Two entities overlap each other or not at all. -/
theorem Overlap.symm (h : v.Overlap a b) : v.Overlap b a := by
  obtain ⟨x, ha, hb⟩ := h
  exact ⟨x, hb, ha⟩

theorem isFinite_real (t : Transform ℝ) : t.isFinite = true := rfl

/-- What is covered lies in the box stored, placed where the entity stands. -/
theorem covers_iff : v.Covers a y ↔ ∃ q t, v.state a = .ok q ∧ q.enabled = true ∧
    v.Placed (some a) t ∧ ((q.bounds false).transform t).Interior y := by
  unfold Covers
  simp only [worldBounds_eq_ok]
  constructor
  · rintro ⟨_, ⟨q, t, hq, henabled, hplaced, _, rfl⟩, hy⟩
    exact ⟨q, t, hq, henabled, hplaced, hy⟩
  · rintro ⟨q, t, hq, henabled, hplaced, hy⟩
    exact ⟨_, ⟨q, t, hq, henabled, hplaced, isFinite_real t, rfl⟩, hy⟩

/-- What a fitted surrogate covers lies inside the box that its state calls for,
before it is placed. -/
theorem covers_iff_inside (hfit : ∀ q, v.state a = .ok q → q.Fitted) : v.Covers a y ↔
    ∃ q t p, v.state a = .ok q ∧ q.enabled = true ∧ v.Placed (some a) t ∧
      q.defaultShape.extents.Inside p ∧ t.point p = y := by
  rw [covers_iff]
  constructor
  · rintro ⟨q, t, hq, henabled, hplaced, hy⟩
    rw [(hfit q hq).transform_bounds] at hy
    obtain ⟨p, hp, hpy⟩ := (Obb.interior_place hplaced.rigid).1 hy
    exact ⟨q, t, p, hq, henabled, hplaced, hp, hpy⟩
  · rintro ⟨q, t, p, hq, henabled, hplaced, hp, hpy⟩
    refine ⟨q, t, hq, henabled, hplaced, ?_⟩
    rw [(hfit q hq).transform_bounds]
    exact (Obb.interior_place hplaced.rigid).2 ⟨p, hp, hpy⟩

/-- An entity that is not below the one that changes covers what it covered before. -/
theorem Covers.of_avoiding (hother : ∀ c, c ≠ x → w.state c = v.state c) (h : w.Covers a y)
    (havoid : ¬ReflTransGen w.ParentLink a x) : v.Covers a y := by
  obtain ⟨q, t, hq, henabled, hplaced, hy⟩ := covers_iff.1 h
  have ha : a ≠ x := fun hax => havoid (hax ▸ .refl)
  refine covers_iff.2 ⟨q, t, (hother a ha).symm.trans hq, henabled, ?_, hy⟩
  exact hplaced.of_avoiding hother fun c hc => Option.some.inj hc ▸ havoid

/-- Below an entity that changes, the covered points move along with it. -/
theorem Covers.of_passing (hfit : w.Fitted) (hother : ∀ c, c ≠ x → w.state c = v.state c)
    (hv : v.Placed (some x) s) (hw : w.Placed (some x) t) (h : w.Covers a y) (ha : a ≠ x)
    (hreach : ReflTransGen w.ParentLink a x) : ∃ z, t.point z = y ∧ v.Covers a (s.point z) := by
  obtain ⟨q, u, p, hq, henabled, hplaced, hp, hpy⟩ := (covers_iff_inside (hfit a)).1 h
  obtain ⟨own, hown, rfl, hbefore⟩ := Placed.of_passing hother hv hw hplaced hreach
  refine ⟨own.point p, by rw [← Transform.point_comp t hown, hpy], ?_⟩
  exact (covers_iff_inside fun q hq => hfit a q ((hother a ha).trans hq)).2 ⟨q, s.comp own, p,
    (hother a ha).symm.trans hq, henabled, hbefore, hp, Transform.point_comp s hown p⟩

/-! ## What a collision query finds -/

section Query

variable {options : CollisionOptions ℝ}

/--
**A collision query that finds nothing is right.** What is not in the family of its entity does not
overlap the entity, nor anything below it, unless it is a zone or has a mesh.
-/
theorem not_overlap_of_neighbours (hfit : v.Fitted) (huse : v.useSurrogates = true)
    (hzone : v.scene.activeZone = none) (hepsilon : 0 ≤ v.working.epsilon + options.margin)
    (h : v.neighbours x options true = .ok none) (ha : ReflTransGen v.ParentLink a x)
    (hb : ¬ReflTransGen v.ParentLink b x) (hxb : ¬TransGen v.ParentLink x b) {q : Surrogate ℝ}
    (hq : v.state b = .ok q) (hkind : q.kind ≠ .zone) (hmesh : q.mesh = []) : ¬v.Overlap a b := by
  rintro ⟨y, hya, hyb⟩
  obtain ⟨qa, ua, pa, hqa, henabled, hua, hpa, rfl⟩ := (covers_iff_inside (hfit a)).1 hya
  obtain ⟨qb, ub, pb, hqb, henabled', hub, hpb, hyb⟩ := (covers_iff_inside (hfit b)).1 hyb
  rw [hq] at hqb
  cases hqb
  -- the probe of the one and the obstacle of the other have the covered point in common
  have hmeet := Obb.intersects_of_interior hua.rigid hub.rigid
    ((Obb.interior_place hua.rigid).2 ⟨pa, Surrogate.inside_shape hpa options.extendEntity, rfl⟩)
    ((Obb.interior_place hub.rigid).2 ⟨pb, Surrogate.inside_shape hpb options.extendTargets, hyb⟩)
    hepsilon
  rw [← (hfit a qa hqa).transform_bounds, ← (hfit b q hq).transform_bounds] at hmeet
  have hlink := knownLink_eq huse
  refine (reports_neighbours h).nothing.1 rfl b ?_
  constructor
  case known => exact knows_of_state huse hq
  case other => exact fun hbx => hb (hbx ▸ .refl)
  case notAbove => exact hxb
  case notBelow => exact fun hbelow => hb (hlink ▸ hbelow).to_reflTransGen
  case inZone =>
    rw [hzone]
    exact nofun
  case hit =>
    refine ⟨_, a, _, ⟨q, ub, hq, henabled', hkind, hub, rfl⟩, hlink.symm ▸ ha,
      ⟨qa, ua, hqa, henabled, hua, rfl⟩, ?_⟩
    unfold Obstacle.hitBy
    rw [hmeet, Surrogate.scaledMesh, hmesh]
    rfl

end Query

/-!
## One change

Of two entities that clash after a change, both have stayed, or both have moved along, or only one
has moved. In the first two cases they clashed before, and in the third the query has compared them.
-/

/-- Two entities overlap, and neither is below the other. -/
structure Clash (v : View ℝ) (a b : EntityId) : Prop where
  notBelow : ¬TransGen v.ParentLink a b
  notAbove : ¬TransGen v.ParentLink b a
  overlap : v.Overlap a b

theorem Clash.symm (h : v.Clash a b) : v.Clash b a := ⟨h.notAbove, h.notBelow, h.overlap.symm⟩

/-- Everything that is seen is placed. -/
def Rooted (v : View ℝ) : Prop := ∀ c q, v.state c = .ok q → ∃ t, v.Placed (some c) t

/-- A box that queries can tell exactly: no zone, and no mesh. -/
def Solid (v : View ℝ) (id : EntityId) : Prop :=
  ∃ q, v.state id = .ok q ∧ q.kind ≠ .zone ∧ q.mesh = []

theorem Overlap.exists_state (h : v.Overlap a b) : ∃ q, v.state a = .ok q := by
  obtain ⟨y, ha, _⟩ := h
  obtain ⟨q, _, hq, _⟩ := covers_iff.1 ha
  exact ⟨q, hq⟩

/-- Neither at nor below the entity that changes: two that clash did so before. -/
theorem Clash.of_avoiding (hother : ∀ c, c ≠ x → w.state c = v.state c) (h : w.Clash a b)
    (ha : ¬ReflTransGen w.ParentLink a x) (hb : ¬ReflTransGen w.ParentLink b x) : v.Clash a b := by
  have hbelow : ∀ {a b}, ¬TransGen w.ParentLink a b → ¬ReflTransGen w.ParentLink a x →
      ¬TransGen v.ParentLink a b := fun hnot hout hbefore =>
    (below_or_through hother hbefore).elim hnot fun hthrough => hout hthrough.1
  obtain ⟨y, hya, hyb⟩ := h.overlap
  exact ⟨hbelow h.notBelow ha, hbelow h.notAbove hb,
    y, hya.of_avoiding hother ha, hyb.of_avoiding hother hb⟩

/-- Both below the entity that changes: two that clash did so before, where they were. -/
theorem Clash.of_passing (hfit : w.Fitted) (hother : ∀ c, c ≠ x → w.state c = v.state c)
    (hv : v.Placed (some x) s) (hw : w.Placed (some x) t) (hrooted : v.Rooted) (h : w.Clash a b)
    (hax : a ≠ x) (hbx : b ≠ x) (ha : ReflTransGen w.ParentLink a x)
    (hb : ReflTransGen w.ParentLink b x) : v.Clash a b := by
  -- who was above the entity and is below it would have been above itself
  have hbelow : ∀ {a b}, ¬TransGen w.ParentLink a b → b ≠ x → ReflTransGen w.ParentLink b x →
      (∃ q, v.state b = .ok q) → ¬TransGen v.ParentLink a b := by
    intro a b hnot hbx hb hseen hbefore
    rcases below_or_through hother hbefore with hafter | ⟨_, hxb⟩
    · exact hnot hafter
    · obtain ⟨q, hq⟩ := hseen
      obtain ⟨t, ht⟩ := hrooted b q hq
      rcases reflTransGen_iff_eq_or_transGen.1 (reach_of_reach hother hb) with hxb' | hlt
      · exact hbx hxb'.symm
      · exact ht.not_below (hlt.trans_left hxb)
  have hseen : ∀ {a b}, w.Overlap a b → a ≠ x → ∃ q, v.state a = .ok q := fun hab hax => by
    obtain ⟨q, hq⟩ := hab.exists_state
    exact ⟨q, (hother _ hax).symm.trans hq⟩
  obtain ⟨y, hya, hyb⟩ := h.overlap
  obtain ⟨z, hz, hza⟩ := hya.of_passing hfit hother hv hw hax ha
  obtain ⟨z', hz', hzb⟩ := hyb.of_passing hfit hother hv hw hbx hb
  obtain rfl := hw.rigid.point_injective (hz.trans hz'.symm)
  exact ⟨hbelow h.notBelow hbx hb (hseen h.overlap.symm hbx),
    hbelow h.notAbove hax ha (hseen h.overlap hax), s.point z, hza, hzb⟩

/--
When one entity changes, and the collision query about it finds nothing, two different entities that
clash are not the one that changed, and clashed before.
-/
theorem clash_of_neighbours {options : CollisionOptions ℝ} (hfit : w.Fitted)
    (hother : ∀ c, c ≠ x → w.state c = v.state c)
    (huse : w.useSurrogates = true) (hzone : w.scene.activeZone = none)
    (hepsilon : 0 ≤ w.working.epsilon + options.margin)
    (hquery : w.neighbours x options true = .ok none) (hrooted : v.Rooted) (hab : a ≠ b)
    (ha : w.Solid a) (hb : w.Solid b) (h : w.Clash a b) : a ≠ x ∧ b ≠ x ∧ v.Clash a b := by
  -- one of them in the family and the other outside: the query would have found them
  have hfound : ∀ {a b}, w.Clash a b → w.Solid b → ReflTransGen w.ParentLink a x →
      ReflTransGen w.ParentLink b x := by
    intro a b h hb ha
    by_contra hout
    obtain ⟨q, hq, hkind, hmesh⟩ := hb
    have hxb : ¬TransGen w.ParentLink x b := fun hxb => h.notBelow (hxb.trans_right ha)
    exact not_overlap_of_neighbours hfit huse hzone hepsilon hquery ha hout hxb hq hkind
      hmesh h.overlap
  by_cases hax : ReflTransGen w.ParentLink a x
  · have hbx := hfound h hb hax
    have hne : a ≠ x ∧ b ≠ x := by
      constructor
      · rintro rfl
        rcases reflTransGen_iff_eq_or_transGen.1 hbx with hba | hlt
        · exact hab hba
        · exact h.notAbove hlt
      · rintro rfl
        rcases reflTransGen_iff_eq_or_transGen.1 hax with hba | hlt
        · exact hab hba.symm
        · exact h.notBelow hlt
    obtain ⟨q, hq, _⟩ := ha
    obtain ⟨ta, hta⟩ := hrooted a q ((hother a hne.1).symm.trans hq)
    obtain ⟨s, hs⟩ := hta.reach (reach_of_reach hother hax)
    obtain ⟨y, hya, _⟩ := h.overlap
    obtain ⟨_, ua, _, _, hua, _⟩ := covers_iff.1 hya
    obtain ⟨t, ht⟩ := hua.reach hax
    exact ⟨hne.1, hne.2, h.of_passing hfit hother hs ht hrooted hne.1 hne.2 hax hbx⟩
  · have hbx : ¬ReflTransGen w.ParentLink b x := fun hbx => hax (hfound h.symm ha hbx)
    exact ⟨fun he => hax (he ▸ .refl), fun he => hbx (he ▸ .refl), h.of_avoiding hother hax hbx⟩

/-- A query that has an answer places its entity, and with it everything stays placed. -/
theorem Rooted.of_neighbours {options : CollisionOptions ℝ} {found : Option (List EntityId)}
    (h : v.Rooted) (hother : ∀ c, c ≠ x → w.state c = v.state c)
    (hquery : w.neighbours x options true = .ok found) : w.Rooted := by
  obtain ⟨_, _, hquery⟩ := bind_eq_ok.1 hquery
  obtain ⟨above, habove, _⟩ := bind_eq_ok.1 hquery
  obtain ⟨q, hq, hlineage, _⟩ := ancestors_eq_ok.1 habove
  have hx : ∃ t, w.Placed (some x) t := (Lineage.link hq hlineage).exists_placed
  intro c q' hq'
  by_cases hc : c = x
  · exact hc ▸ hx
  · obtain ⟨t, ht⟩ := h c q' ((hother c hc).symm.trans hq')
    exact ht.exists_after hother hx

end View

end SceneGuard
