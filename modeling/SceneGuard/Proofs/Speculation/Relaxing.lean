import SceneGuard.Proofs.Geometry.Widening
import SceneGuard.Proofs.Speculation.Overlap

/-!
# Relaxed queries

A query is relaxed by a greater margin, and by extended boxes where it took default ones
(`CollisionOptions.Relaxes`). Where no border moves a face inwards, this only makes boxes wider
about the same centers. Main statements:

* `Surrogate.widens_shape` — the extended box of an entity is at least as wide as its default box;
* `View.InTheWay.relax` — so what is in the way still is when the query is relaxed;
* `View.exists_neighbours` — and whether a query fails does not depend on margin or boxes;
* `WorkingSet.collide_relaxed` — relaxing a query about a command loses no hit, and neither does
  testing what is below the entity as well.
-/

namespace SceneGuard

open Relation

/-!
## Borders

A border moves all faces of a box outwards as long as it is not negative. With a negative one the
larger box need not hold the smaller one, and may be inside out.
-/

/-- No face of the entity's boxes moves inwards. -/
def Entity.Bordered (e : Entity ℝ) : Prop := ∀ i, 0 ≤ e.border.coords i

/-- No face of the surrogate's boxes moves inwards. -/
def Surrogate.Bordered (s : Surrogate ℝ) : Prop := ∀ i, 0 ≤ s.border.coords i

/-- No border of the scene moves a face inwards. -/
def Scene.Bordered (scene : Scene ℝ) : Prop := ∀ id e, scene.get? id = some e → e.Bordered

/-- No border of the working set moves a face inwards. -/
def WorkingSet.Bordered (w : WorkingSet ℝ) : Prop := ∀ id s, w.get? id = some s → s.Bordered

namespace Surrogate

/-- The center of every shape of an entity is where the entity is. -/
theorem center_shape (s : Surrogate ℝ) (extended : Bool) :
    (s.shape extended).extents.center = .splat 0 := by
  obtain ⟨size, scale, hshape, _⟩ := s.exists_shape extended
  rw [hshape]
  refine Vec3.coords_injective
    (funext fun i => (coords_center_boxAround size scale s.border i).trans ?_)
  fin_cases i <;> rfl

/-- The inflated box is nowhere thinner than the default one. -/
theorem half_shape_le (s : Surrogate ℝ) (extended : Bool) (i : Fin 3) :
    s.defaultShape.extents.half.coords i ≤ (s.shape extended).extents.half.coords i := by
  obtain ⟨size, scale, hshape, hwide⟩ := s.exists_shape extended
  have hwide := hwide i
  rw [hshape, defaultShape, coords_half_boxAround, coords_half_boxAround]
  linarith

/-- The default box is not inside out. -/
def Proper (s : Surrogate ℝ) : Prop := ∀ i, 0 ≤ s.defaultShape.extents.half.coords i

/-- With a border that is not negative, the larger box holds the smaller one. -/
theorem Bordered.proper {s : Surrogate ℝ} (h : s.Bordered) : s.Proper := by
  intro i
  rw [defaultShape, coords_half_boxAround]
  exact add_nonneg (div_nonneg (abs_nonneg _) zero_le_two) (h i)

/-- Asking for the extended box gives a box at least as wide. -/
theorem widens_shape {s : Surrogate ℝ} (hs : s.Proper) {extended extended' : Bool}
    (h : extended = true → extended' = true) (t : Transform ℝ) :
    (s.shape extended').Widens (s.shape extended) t := by
  cases extended with
  | true =>
    rw [h rfl]
    exact .refl _ t
  | false =>
    have hcenter : (s.shape extended').extents.center = (s.shape false).extents.center :=
      (s.center_shape extended').trans (s.center_shape false).symm
    exact LocalBox.widens_of_half_le hs hcenter (s.half_shape_le extended') t

end Surrogate

/-! ## Options -/

/-- The first query looks at the same entities as the second,
and at each of them at least as widely. -/
structure CollisionOptions.Relaxes (options' options : CollisionOptions ℝ) : Prop where
  useSurrogates : options'.useSurrogates = options.useSurrogates
  margin : options.margin ≤ options'.margin
  extendEntity : options.extendEntity = true → options'.extendEntity = true
  extendTargets : options.extendTargets = true → options'.extendTargets = true

namespace View

variable {v : View ℝ} {options options' : CollisionOptions ℝ} {id x : EntityId}

/-! ## Hits -/

/-- A wider box hits a wider obstacle with the same mesh where narrower ones did. -/
theorem Obstacle.hitBy_mono {a a' b b' : LocalBox ℝ} {s t : Transform ℝ} {mesh : List (Triangle ℝ)}
    {epsilon epsilon' : ℝ} (hs : s.Rigid) (ht : t.Rigid) (ha : a'.Widens a s) (hb : b'.Widens b t)
    (hepsilon : epsilon ≤ epsilon')
    (h : (Obstacle.mk (Obb.place b t) mesh).hitBy epsilon (Obb.place a s) = true) :
    (Obstacle.mk (Obb.place b' t) mesh).hitBy epsilon' (Obb.place a' s) = true := by
  unfold hitBy at h ⊢
  simp only [Bool.and_eq_true, Bool.or_eq_true] at h ⊢
  obtain ⟨hboxes, hmesh⟩ := h
  refine ⟨Obb.intersects_mono hs ht ha hb hepsilon hboxes, ?_⟩
  rcases hmesh with (hempty | hmeets) | hinside
  · exact .inl (.inl hempty)
  · obtain ⟨tri, htri, hmeets⟩ := List.any_eq_true.1 hmeets
    exact .inl (.inr (List.any_eq_true.2 ⟨tri, htri, Obb.meetsTriangle_mono hs ha hmeets⟩))
  · rw [ha.center_place]
    exact .inr hinside

/--
What is in the way still is when the query is relaxed. What is tested may be inside out as long as
the query does not change the box it takes for it; what can be hit may not.
-/
theorem InTheWay.relax {tested : EntityId → Prop} (hfit : v.Fitted)
    (hrelaxes : options'.Relaxes options)
    (htested : options'.extendEntity = options.extendEntity ∨ ∀ y s, v.state y = .ok s → s.Proper)
    (htarget : ∀ y s, y ≠ id → v.state y = .ok s → s.Proper) (h : v.InTheWay options tested id x) :
    v.InTheWay options' tested id x := by
  obtain ⟨_, y, _, ⟨s, t, hs, henabled, hkind, ht, rfl⟩, hy, ⟨q, u, hq, hqenabled, hu, rfl⟩,
    hhit⟩ := h.hit
  have hprobe : (q.shape options'.extendEntity).Widens (q.shape options.extendEntity) u := by
    rcases htested with hsame | hproper
    · rw [hsame]
      exact .refl _ u
    · exact Surrogate.widens_shape (hproper y q hq) hrelaxes.extendEntity u
  have hobstacle : (s.shape options'.extendTargets).Widens (s.shape options.extendTargets) t :=
    Surrogate.widens_shape (htarget x s h.other hs) hrelaxes.extendTargets t
  have hepsilon := add_le_add_right hrelaxes.margin v.working.epsilon
  refine ⟨h.known, h.other, h.notAbove, h.notBelow, h.inZone, _, y, _,
    ⟨s, t, hs, henabled, hkind, ht, rfl⟩, hy, ⟨q, u, hq, hqenabled, hu, rfl⟩, ?_⟩
  -- the boxes stored are those of the states, and of these the wider ones hit as well
  rw [(hfit x s hs).transform_bounds, (hfit y q hq).transform_bounds] at hhit ⊢
  exact Obstacle.hitBy_mono hu.rigid ht.rigid hprobe hobstacle hepsilon hhit

/-!
## Failures

Margin and choice of box bear on the sizes of boxes only. What can make a query fail, its walks and
the placements, does not depend on them.
-/

/-- Whether there is a box does not depend on which one is asked for. -/
theorem exists_worldBounds {extended : Bool} (h : ∃ box, v.worldBounds x extended = .ok box)
    (extended' : Bool) : ∃ box, v.worldBounds x extended' = .ok box := by
  unfold worldBounds at h ⊢
  rw [exists_bind_eq_ok] at h ⊢
  obtain ⟨s, hs, h⟩ := h
  refine ⟨s, hs, ?_⟩
  split
  · next henabled =>
    rw [if_pos henabled] at h
    exact exists_bind_pure.2 (exists_bind_pure.1 h)
  · exact ⟨none, rfl⟩

theorem exists_obstacle? {zone : Option EntityId} {extended : Bool}
    (h : ∃ found, v.obstacle? zone extended x = .ok found) (extended' : Bool) :
    ∃ found, v.obstacle? zone extended' x = .ok found := by
  unfold obstacle? at h ⊢
  rw [exists_bind_eq_ok] at h ⊢
  -- the choice of box is made last, after everything that can fail
  obtain ⟨s, hs, h⟩ := h
  refine ⟨s, hs, ?_⟩
  by_cases hidle : !s.enabled || s.kind = .zone
  · rw [if_pos hidle]
    exact ⟨none, rfl⟩
  · rw [if_neg hidle] at h ⊢
    cases zone with
    | none => exact exists_bind_pure.2 (exists_bind_pure.1 h)
    | some z =>
      obtain ⟨chain, hchain, h⟩ := exists_bind_eq_ok.1 h
      refine exists_bind_eq_ok.2 ⟨chain, hchain, ?_⟩
      cases hz : chain.contains z with
      | false => exact ⟨none, rfl⟩
      | true =>
        rw [hz] at h
        exact exists_bind_pure.2 (exists_bind_pure.1 h)

/-- A query that is answered with some options is answered with others too. -/
theorem exists_hits {probes : List (Obb ℝ)} {targets : List EntityId}
    (h : ∃ found, v.hits options probes targets = .ok found) (options' : CollisionOptions ℝ)
    (probes' : List (Obb ℝ)) : ∃ found, v.hits options' probes' targets = .ok found := by
  induction targets with
  | nil => exact ⟨[], rfl⟩
  | cons target rest ih =>
    obtain ⟨found, h⟩ := h
    obtain ⟨obstacle, hobstacle, h⟩ := bind_eq_ok.1 h
    obtain ⟨more, hmore, -⟩ := bind_eq_ok.1 h
    obtain ⟨obstacle', hobstacle'⟩ := exists_obstacle? ⟨obstacle, hobstacle⟩ options'.extendTargets
    obtain ⟨more', hmore'⟩ := ih ⟨more, hmore⟩
    exact ⟨_, bind_eq_ok.2 ⟨obstacle', hobstacle', bind_eq_ok.2 ⟨more', hmore', rfl⟩⟩⟩

/-- Whether a query has an answer does not depend on its margin, nor on the boxes it takes. -/
theorem exists_neighbours {withDescendants : Bool}
    (h : ∃ found, v.neighbours id options withDescendants = .ok found)
    (options' : CollisionOptions ℝ) :
    ∃ found, v.neighbours id options' withDescendants = .ok found := by
  obtain ⟨found, h⟩ := h
  obtain ⟨below, hbelow, h⟩ := bind_eq_ok.1 h
  obtain ⟨above, habove, h⟩ := bind_eq_ok.1 h
  obtain ⟨bounds, hbounds, h⟩ := bind_eq_ok.1 h
  obtain ⟨hits, hhits, -⟩ := bind_eq_ok.1 h
  -- with other boxes the two loops still have an answer for every entity
  obtain ⟨bounds', hbounds'⟩ := exists_mapM fun y hy =>
    exists_worldBounds ((exists_mem_of_mapM hbounds hy).imp fun _ => And.right)
      options'.extendEntity
  obtain ⟨hits', hhits'⟩ := exists_hits ⟨hits, hhits⟩ options' (bounds'.filterMap fun b => b)
  exact ⟨_,
    bind_eq_ok.2 ⟨below, hbelow,
      bind_eq_ok.2 ⟨above, habove,
        bind_eq_ok.2 ⟨bounds', hbounds', bind_eq_ok.2 ⟨hits', hhits', rfl⟩⟩⟩⟩⟩

end View

namespace WorkingSet

variable {w : WorkingSet ℝ} {scene : Scene ℝ} {c : Command ℝ}
  {options options' : CollisionOptions ℝ} {withDescendants : Bool} {x : EntityId}

/-! ## What surrogates have for borders -/

/-- Surrogates that a query has settled have borders as those in the working set and the scene. -/
theorem bordered_settled (hw : w.Bordered) (hscene : scene.Bordered) {s : Surrogate ℝ}
    (h : (w.viewFor scene options).settled x = .ok s) : s.Bordered := by
  rcases found_of_settled h with hs | ⟨e, he, rfl⟩
  · exact hw x s hs
  · exact hscene x e he

/-- A surrogate under test keeps the border of its entity; that of an add is the entity to be. -/
theorem proper_speculate (hw : w.Bordered) (hscene : scene.Bordered) {s : Surrogate ℝ}
    (h : (w.viewFor scene options).speculate c = .ok (some s))
    (hadded : ∀ header e q, c = .single header e → e.adds? = some q →
      (Surrogate.ofEntity q).Proper) :
    s.Proper := by
  cases c with
  | composite => cases h
  | single header e =>
    rw [View.speculate_single] at h
    cases hq : (w.viewFor scene options).ground e with
    | error f =>
      rw [hq] at h
      cases h
    | ok q =>
      rw [hq] at h
      have hmade : q.edit e = some s := (Option.ite_none_right_eq_some.1 (Except.ok.inj h)).2
      -- an add brings its own entity; every other edit starts from one that is bordered already
      cases e with
      | add role e =>
        cases hq
        cases hmade
        exact hadded header _ e rfl rfl
      | changeProperty => cases hmade
      | remove | move | rotate | scale | reparent =>
        have hq : q.Bordered := bordered_settled hw hscene hq
        cases hmade
        exact Surrogate.Bordered.proper hq

/-- A query about a command finds an entity if it has an answer, and the entity is part of that. -/
def Finds (w : WorkingSet ℝ) (scene : Scene ℝ) (c : Command ℝ) (options : CollisionOptions ℝ)
    (withDescendants : Bool) (x : EntityId) : Prop :=
  ∃ l, w.collide scene c options withDescendants = .ok (some l) ∧ x ∈ l

/-- What is found is what is in the way of the surrogate that the command makes. -/
theorem finds_iff : w.Finds scene c options withDescendants x ↔
    c.kind.isRemove = false ∧ ∃ s, (w.viewFor scene options).speculate c = .ok (some s) ∧
      s.kind ≠ .zone ∧
      s.enabled = true ∧
      (∃ found, ((w.viewFor scene options).trying s).neighbours s.id options
        withDescendants = .ok found) ∧
      ((w.viewFor scene options).trying s).InTheWay options
        (((w.viewFor scene options).trying s).Tested withDescendants s.id) s.id x := by
  unfold Finds
  constructor
  · rintro ⟨l, h, hx⟩
    rw [collide_viewFor] at h
    -- the exits in the order of the code: a removal, nothing made, a zone or disabled entity
    split at h
    · cases h
    · next hremove =>
      obtain ⟨made, hmade, h⟩ := bind_eq_ok.1 h
      cases made with
      | none => cases h
      | some s =>
        dsimp only at h
        split at h
        · cases h
        · next hcollides =>
          obtain ⟨hkind, henabled⟩ : s.kind ≠ .zone ∧ s.enabled = true := by simpa using hcollides
          exact ⟨Bool.eq_false_iff.2 hremove, s, hmade, hkind, henabled, ⟨_, h⟩,
            (View.reports_tested h).mem_iff.1 ⟨l, rfl, hx⟩⟩
  · rintro ⟨hremove, s, hmade, hkind, henabled, ⟨found, hfound⟩, hx⟩
    obtain ⟨l, rfl, hl⟩ := (View.reports_tested hfound).mem_iff.2 hx
    exact ⟨l, (collide_of_speculate hremove hmade hkind henabled withDescendants).trans hfound, hl⟩

/--
**Relaxing a query loses no hit.** Let no border of the scene or of the working set move a face
inwards, and let the surrogates have the boxes they call for. What a query about a command finds is
also found with a greater margin and with extended boxes; only where the boxes of what is tested are
extended, the command may not add an entity whose border turns its default box inside out. And what
is found in the way of the command's entity is also found when everything below it is tested as
well, if that query has an answer.
-/
theorem collide_relaxed (hfitted : w.Fitted) (hw : w.Bordered) (hscene : scene.Bordered)
    (c : Command ℝ) :
    (∀ options options' : CollisionOptions ℝ, options'.Relaxes options →
      (options'.extendEntity = options.extendEntity ∨
        ∀ header e q, c = .single header e → e.adds? = some q → (Surrogate.ofEntity q).Proper) →
      ∀ withDescendants x, w.Finds scene c options withDescendants x →
        w.Finds scene c options' withDescendants x) ∧
    ∀ options x found, w.Finds scene c options false x →
      w.collide scene c options true = .ok found →
      w.Finds scene c options true x := by
  constructor
  · intro options options' hrelaxes hadded withDescendants x h
    obtain ⟨hremove, s, hmade, hkind, henabled, hanswer, hx⟩ := finds_iff.1 h
    -- the options that choose the view are the same, so both calls test one view
    have hview : w.viewFor scene options' = w.viewFor scene options := by
      unfold viewFor
      rw [hrelaxes.useSurrogates]
    have hsettled : ∀ y q, y ≠ s.id → ((w.viewFor scene options).trying s).state y = .ok q →
        q.Proper := by
      intro y q hy hq
      rw [View.state_trying, if_neg (Ne.symm hy)] at hq
      exact (bordered_settled hw hscene hq).proper
    refine finds_iff.2 ⟨hremove, s, ?_⟩
    rw [hview]
    have hfit : ((w.viewFor scene options).trying s).Fitted :=
      hfitted.trying (hfitted.speculate hmade)
    refine ⟨hmade, hkind, henabled, View.exists_neighbours hanswer options',
      hx.relax hfit hrelaxes ?_ hsettled⟩
    -- the entity of the command itself; all others come from the scene or the session
    refine hadded.imp_right fun hadded y q hq => ?_
    by_cases hy : y = s.id
    · rw [hy, View.state_trying, if_pos rfl] at hq
      cases hq
      exact proper_speculate hw hscene hmade hadded
    · exact hsettled y q hy hq
  · -- more of the entity is tested with its descendants, and what was found before still is
    intro options x found h hfound
    obtain ⟨hremove, s, hmade, hkind, henabled, -, hx⟩ := finds_iff.1 h
    rw [collide_of_speculate hremove hmade hkind henabled] at hfound
    refine finds_iff.2 ⟨hremove, s, hmade, hkind, henabled, ⟨found, hfound⟩, ?_⟩
    obtain ⟨o, y, box, hstands, hy, hbox⟩ := hx.hit
    exact { hx with hit := ⟨o, y, box, hstands, hy.imp_right fun hbelow => ⟨rfl, hbelow.2⟩, hbox⟩ }

end WorkingSet

/-!
## A slab inside out

With a border of minus one the default box of the slab is inside out across one axis, where it
reaches as far from its center as a unit cube does. Its extended box is two wide without the border,
and with it has no width at all.
-/

/-- A cube at a slant. -/
noncomputable def slantedPost : Entity ℝ :=
  { Entity.new 2 .model (.splat 1) with position := ⟨11.2, 0, 0⟩, rotation := .slanting }

/-- A cube at the same slant. Across its first axis it has a border,
and is to be two wide at least. -/
noncomputable def slantedSlab (border : ℝ) : Entity ℝ :=
  { Entity.new 1 .model (.splat 1) with
    position := ⟨0, 0, 0⟩, rotation := .slanting, border := ⟨border, 0, 0⟩,
    minimumExtent := some ⟨2.0, 0, 0⟩ }

noncomputable def slantedPosts : Scene ℝ where
  entities := .ofList [(2, slantedPost)]

noncomputable def addingSlab (border : ℝ) :
    Command ℝ := .single { id := 1 } (.add .entity (slantedSlab border))

namespace Surrogate

/-- A cube reaches half its size from the center,
also if a border of minus one turns it inside out. -/
theorem abs_half_defaultShape {s : Surrogate ℝ} (hsize : s.size = .splat 1)
    (hscale : s.scale = .splat 1) {i : Fin 3}
    (hborder : s.border.coords i = 0 ∨ s.border.coords i = -1) :
    |s.defaultShape.extents.half.coords i| = 1 / 2 := by
  have hone : (Vec3.splat 1 : Vec3 ℝ).coords i = 1 := by fin_cases i <;> rfl
  rw [defaultShape, coords_half_boxAround, hsize, hscale, hone]
  rcases hborder with h | h <;> rw [h] <;> norm_num

/-- The inflated slab is two wide, and its border is taken as it is. -/
theorem shape_slantedSlab (border : ℝ) : (ofEntity (slantedSlab border)).shape true =
    boxAround ⟨2.0, 1, 1⟩ (.splat 1) ⟨border, 0, 0⟩ := by
  have hextent : (ofEntity (slantedSlab border)).extent = .splat 1 := by
    ext <;> exact (congrArg abs (mul_one (1 : ℝ))).trans abs_one
  have hthin : (1 : ℝ) < 2.0 := by norm_num
  have hthick : ¬(1 : ℝ) < 0 := not_lt.2 zero_le_one
  have hminimum : (ofEntity (slantedSlab border)).minimumExtent = some ⟨2.0, 0, 0⟩ := rfl
  have hborder : (ofEntity (slantedSlab border)).border = ⟨border, 0, 0⟩ := rfl
  unfold shape extendedShape?
  rw [hextent, hminimum, hborder]
  simp [Vec3.zipWith, Vec3.splat, Vec3.any, hthin, hthick]

end Surrogate

/-- The post reaches half its size from the center. -/
theorem abs_half_slantedPost (i : Fin 3) :
    |((Surrogate.ofEntity slantedPost).shape false).extents.half.coords i| = 1 / 2 :=
  Surrogate.abs_half_defaultShape rfl rfl (.inl (by fin_cases i <;> rfl))

/-- What a query about adding the slab sees. -/
noncomputable def besidePost (border : ℝ) : View ℝ :=
  ((WorkingSet.bare 0).view slantedPosts).trying (.ofEntity (slantedSlab border))

/-- Beside the post the slab hits it when the two boxes intersect. -/
theorem hits_besidePost (border : ℝ) (extended : Bool) (probe : Obb ℝ) :
    (besidePost border).hits { margin := 10, extendEntity := extended } [probe] [2] =
      .ok (if probe.intersects (Obb.place ((Surrogate.ofEntity slantedPost).shape false)
        (.slantedAt 11.2)) 10
        then [2] else []) := by
  have hzone : (besidePost border).scene.activeZone = none := rfl
  have hepsilon : (besidePost border).working.epsilon = 0 := rfl
  have hobstacle : (besidePost border).obstacle? none false 2 =
      .ok (some ⟨((Surrogate.ofEntity slantedPost).bounds false).transform
        (Transform.identity.comp (.slantedAt 11.2)), []⟩) := rfl
  rw [Transform.identity_comp, (Surrogate.fitted_ofEntity _).transform_bounds] at hobstacle
  unfold View.hits
  rw [hzone, hepsilon, hobstacle, zero_add]
  simp [View.Obstacle.hitBy, View.hits, bind, Except.bind, pure, Except.pure]

/-- So the query about adding the slab comes down to one test of two boxes. -/
theorem collide_addingSlab (border : ℝ) (extended withDescendants : Bool) :
    (WorkingSet.bare 0).collide slantedPosts (addingSlab border)
        { margin := 10, extendEntity := extended } withDescendants =
      .ok (if (Obb.place ((Surrogate.ofEntity (slantedSlab border)).shape extended)
        (.slantedAt 0)).intersects
        (Obb.place ((Surrogate.ofEntity slantedPost).shape false) (.slantedAt 11.2)) 10
        then some [2] else none) := by
  have hcollide : (WorkingSet.bare 0).collide slantedPosts (addingSlab border)
        { margin := 10, extendEntity := extended } withDescendants =
      ((besidePost border).hits { margin := 10, extendEntity := extended }
        [((Surrogate.ofEntity (slantedSlab border)).bounds extended).transform
          (Transform.identity.comp (.slantedAt 0))] [2] >>=
        fun hits => pure (if hits.isEmpty then none else some hits)) := by
    cases withDescendants <;> rfl
  rw [hcollide, hits_besidePost, Transform.identity_comp,
    (Surrogate.fitted_ofEntity _).transform_bounds]
  split <;> rfl

namespace WorkingSet

/-- The default box of the slab overlaps the post within a margin of ten,
without a border and inside out. -/
theorem finds_addingSlab (border : ℝ) (hborder : border = 0 ∨ border = -1) :
    (bare 0).Finds slantedPosts (addingSlab border) { margin := 10 } false 2 := by
  have hslab : ∀ i, |((Surrogate.ofEntity (slantedSlab border)).shape false).extents.half.coords
      i| = 1 / 2 := by
    refine fun i => Surrogate.abs_half_defaultShape rfl rfl ?_
    fin_cases i
    · exact hborder
    · exact .inl rfl
    · exact .inl rfl
  have hhit := Obb.intersects_slanted (Surrogate.center_shape _ _)
    (Surrogate.center_shape _ _) hslab
    abs_half_slantedPost
  exact ⟨[2], (collide_addingSlab border false false).trans (congrArg Except.ok (if_pos hhit)),
    List.mem_singleton_self 2⟩

/-- In an empty working set there is no border that could be negative. -/
theorem bordered_bare (epsilon : ℝ) : (bare epsilon).Bordered := by
  intro id s hs
  cases hs

theorem bordered_slantedPosts : slantedPosts.Bordered := by
  intro id e he
  obtain ⟨rfl, rfl⟩ : id = 2 ∧ e = slantedPost := by
    simpa using List.mem_singleton.1 ((Table.get?_eq_some_iff _ _ _).1 he)
  intro i
  fin_cases i <;> exact le_rfl

/--
The slab without a border is still found when the query is relaxed in every respect. So it is when
its border turns it inside out, as long as the query keeps to its default box, and when what is
below it is tested.
-/
theorem collide_relaxed_slanted :
    (bare (0 : ℝ)).Fitted ∧ (bare 0).Bordered ∧ slantedPosts.Bordered ∧
      (Surrogate.ofEntity (slantedSlab 0)).Proper ∧
      (bare 0).Finds slantedPosts (addingSlab 0)
        { margin := 11, extendEntity := true, extendTargets := true } false 2 ∧
      (bare 0).Finds slantedPosts (addingSlab (-1))
        { margin := 11, extendTargets := true } false 2 ∧
      (bare 0).Finds slantedPosts (addingSlab (-1)) { margin := 10 } true 2 := by
  have hplain := collide_relaxed (fitted_bare 0) (bordered_bare 0) bordered_slantedPosts
    (addingSlab 0)
  have hinsideOut := collide_relaxed (fitted_bare 0) (bordered_bare 0) bordered_slantedPosts
    (addingSlab (-1))
  have hslab : (Surrogate.ofEntity (slantedSlab 0)).Proper :=
    Surrogate.Bordered.proper fun i => by fin_cases i <;> exact le_rfl
  have hmargin : (10 : ℝ) ≤ 11 := by norm_num
  have hevery :
      CollisionOptions.Relaxes { margin := 11, extendEntity := true, extendTargets := true }
        { margin := 10 } := ⟨rfl, hmargin, fun _ => rfl, fun _ => rfl⟩
  have hothers :
      CollisionOptions.Relaxes { margin := 11, extendTargets := true } { margin := 10 } :=
    ⟨rfl, hmargin, id, fun _ => rfl⟩
  -- every flag for the upright slab, all but its own box for the one turned inside out
  refine ⟨fitted_bare 0, bordered_bare 0, bordered_slantedPosts, hslab, ?_, ?_, ?_⟩
  · refine hplain.1 _ _ hevery (.inr ?_) false 2 (finds_addingSlab 0 (.inl rfl))
    rintro _ _ _ ⟨⟩ ⟨⟩
    exact hslab
  · exact hinsideOut.1 _ _ hothers (.inl rfl) false 2 (finds_addingSlab (-1) (.inr rfl))
  · exact hinsideOut.2 _ 2 _ (finds_addingSlab (-1) (.inr rfl)) (collide_addingSlab (-1) false true)

/-- The slab that is inside out is found by its default box,
and no longer by its extended box, which is flat. -/
theorem not_collide_relaxed :
    (bare (0 : ℝ)).Fitted ∧ (bare 0).Bordered ∧ slantedPosts.Bordered ∧
      CollisionOptions.Relaxes { margin := 10, extendEntity := true } { margin := 10 } ∧
      (bare 0).Finds slantedPosts (addingSlab (-1)) { margin := 10 } false 2 ∧
      ¬(bare 0).Finds slantedPosts (addingSlab (-1))
        { margin := 10, extendEntity := true } false 2 := by
  refine ⟨fitted_bare 0, bordered_bare 0, bordered_slantedPosts, ⟨rfl, le_rfl, fun _ => rfl, id⟩,
    finds_addingSlab (-1) (.inr rfl), ?_⟩
  -- widened by its negative border, the slab has no width left along its first axis
  have hflat : ((Surrogate.ofEntity (slantedSlab (-1))).shape true).extents.half.coords 0 = 0 := by
    rw [Surrogate.shape_slantedSlab, Surrogate.coords_half_boxAround]
    norm_num [Vec3.coords, Vec3.splat]
  have hupright : |((Surrogate.ofEntity (slantedSlab (-1))).shape true).extents.half.coords
      1| = 1 / 2 := by
    rw [Surrogate.shape_slantedSlab, Surrogate.coords_half_boxAround]
    norm_num [Vec3.coords, Vec3.splat]
  have hmiss := Obb.not_intersects_slanted (Surrogate.center_shape _ _)
    (Surrogate.center_shape _ _) hflat
    hupright abs_half_slantedPost
  have hnone :
      (bare 0).collide slantedPosts (addingSlab (-1)) { margin := 10, extendEntity := true } false =
      .ok none := (collide_addingSlab (-1) true false).trans
        (congrArg Except.ok (if_neg (by rw [hmiss]; decide)))
  rintro ⟨l, hl, _⟩
  rw [hnone] at hl
  cases hl

end WorkingSet

end SceneGuard
