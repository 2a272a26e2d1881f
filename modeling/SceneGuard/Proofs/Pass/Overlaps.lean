import SceneGuard.Proofs.Pass.Tracking
import SceneGuard.Proofs.Pass.Unspoiled

/-!
# Approved edits make no overlaps

Over the reals and under the default bindings, an approved edit that is executed makes no two
entities overlap that did not before (`no_new_overlap`). The invariant (`Pass.Unspoiled`) joins what
is known of the working set through a pass (`Pass.InStep`) to what a single checked edit does
(`Unspoiled.step`).
-/

namespace SceneGuard

variable {μ : Type} {scene : Scene ℝ}

/-! ## The invariant -/

/-- A command that removes nothing, is about no zone,
and is neither exempt from the rules nor of a drag. -/
structure Command.Guarded {α : Type} (scene : Scene α) (c : Command α) : Prop where
  retains : c.kind.isRemove = false
  forced : c.header.forced = false
  transient : c.header.transient = false
  offZones : ∀ h e, c = .single h e → e.OffZones scene

namespace Pass

/--
What is approved so far spoils nothing, as far as the scene accepts it, and the commands still
pending go through the rules for their kind.
-/
structure Unspoiled (scene : Scene ℝ) (epsilon : ℝ) (p : Pass ℝ μ) : Prop where
  inStep : p.InStep scene
  approved : p.session.queues.approved = p.approvals
  epsilon : p.session.working.epsilon = epsilon
  guarded : ∀ c ∈ p.session.queues.pending, c.Guarded scene
  unspoiled : ∀ t, scene.applyAll p.approvals = (t, .ok ()) →
    SceneGuard.Unspoiled scene t ∧ t.activeZone = scene.activeZone

end Pass

namespace Validator

variable [NumberText ℝ] {v : Validator ℝ μ} {edit : Command ℝ} {p p' : Pass ℝ μ}

omit [NumberText ℝ] in
/-- At the start nothing was done, and so nothing is spoiled. -/
theorem unspoiled_start (hscene : scene.LinkConsistent) (hacyclic : scene.Acyclic)
    (hedit : ∀ c ∈ edit.leaves, c.Guarded scene) (session : Session ℝ) (ids : IdSource)
    (memory : μ) :
    (v.start session ids memory edit).Unspoiled scene v.config.collision.epsilon where
  inStep := inStep_start hscene.keyed fun c hc => (hedit c hc).retains
  approved := by
    rw [queues_start]
    rfl
  epsilon := rfl
  guarded := by
    rw [queues_start]
    exact hedit
  unspoiled t ht := by
    obtain rfl : scene = t := (Prod.ext_iff.1 ht).1
    exact ⟨.start hscene hacyclic, rfl⟩

/-- An approving turn spoils nothing: the command that it approves was
found to collide with nothing. -/
theorem unspoiled_step? (hv : v.Standard) (huse : v.config.collision.useSurrogates = true)
    (hepsilon : 0 ≤ v.config.collision.epsilon) (hzone : scene.activeZone = none)
    (hp : p.Unspoiled scene v.config.collision.epsilon) (hstep : v.step? scene edit p = some p')
    (hf : p'.failed = false) : p'.Unspoiled scene v.config.collision.epsilon := by
  obtain ⟨c, rest, r, hpending, hr, happroved, rfl⟩ := step?_unfailed hstep hf
  have hguarded : c.Guarded scene := hp.guarded c (by rw [hpending]; simp)
  have hretains := hp.inStep.retains c (by rw [hpending]; simp)
  obtain ⟨hleft, hchanges, hissued⟩ := tried_quiet hv.builtin scene p hretains
  obtain ⟨hjudge, made, _, hsession⟩ := approving_turn edit rest hr happroved
  rw [hchanges, hissued, hp.inStep.issued, List.append_nil, List.append_nil] at hsession
  have happrovals := Pass.approvals_settle_approved (v.judged scene p c rest) edit hr happroved
  refine ⟨inStep_approve hv.builtin hp.inStep hpending hr happroved, ?approved, ?epsilon, ?guarded,
    fun t ht => ?unspoiled⟩
  case approved =>
    rw [hsession, happrovals]
    exact congrArg (· ++ _) hp.approved
  case epsilon =>
    rw [hsession]
    exact ((Transaction.since_start hp.inStep.pocket).stageIfAny made).keep_epsilon.trans hp.epsilon
  case guarded =>
    rw [hsession]
    exact fun d hd => hp.guarded d (by rw [hpending]; simp [hd])
  case unspoiled =>
    -- the scene after the earlier approvals is what the collision query saw
    rw [happrovals] at ht
    obtain ⟨m, hm, hlast⟩ := Scene.applyAll_append_eq_ok.1 ht
    obtain ⟨t', happly, hnil⟩ := Scene.applyAll_cons_eq_ok.1 hlast
    obtain rfl : t' = t := (Prod.ext_iff.1 hnil).1
    obtain ⟨hshows, hkeyed⟩ := hp.inStep.shows m hm
    obtain ⟨hbefore, hzone'⟩ := hp.unspoiled m hm
    obtain ⟨header, e, rfl, hremove⟩ := Command.retains_iff.1 hretains
    have hresited :
        (Command.single header e).Resited (v.tried scene p (.single header e)).command :=
      (judge_quiet hv.builtin scene (t := trial p (.single header e)) hremove).1
    have hforced : header.forced = false := hguarded.forced
    have hcollide := fun hplaces : e.kind.places = true =>
      collide_of_approved hv scene p hplaces hforced hjudge happroved
    change m.apply (v.tried scene p (.single header e)).command = _ at happly
    generalize (v.tried scene p (.single header e)).command = d at hleft hresited hcollide happly
    obtain ⟨header', e', rfl, hremove'⟩ := Command.retains_iff.1 hleft
    have hkind : e'.kind = e.kind := hresited.kind
    have hedit := Scene.apply_single_eq_ok.1 happly
    refine ⟨hbefore.step hshows hkeyed hremove' ((hguarded.offZones _ _ rfl).resited hresited) hedit
      hzone
      v.config.collision.options huse ?_ header' fun hplaces => ?_, ?_⟩
    · rw [hp.epsilon]
      exact (add_zero v.config.collision.epsilon).symm ▸ hepsilon
    · obtain ⟨found, hfound, hnone⟩ := hcollide (hkind ▸ hplaces)
      rw [hnone hguarded.transient] at hfound
      exact hfound
    · exact (Scene.activeZone_edit hremove' hedit).trans hzone'

/--
**An approved edit makes no overlap.** Over the reals, and under the default bindings: when an edit
without removals is approved and what comes of it can be applied, two entities that overlap
afterwards were there before, were not above one another, and overlapped already. Zones, and what
has a mesh, are left out.
-/
theorem no_new_overlap (hv : v.Standard) (huse : v.config.collision.useSurrogates = true)
    (hepsilon : 0 ≤ v.config.collision.epsilon) (hscene : scene.LinkConsistent)
    (hacyclic : scene.Acyclic) (hzone : scene.activeZone = none)
    (hforced : edit.header.forced = false) (hedit : ∀ c ∈ edit.leaves, c.Guarded scene)
    {budget : Nat} {session : Session ℝ} {ids : IdSource} {memory : μ} {result : Validation ℝ μ}
    (h : v.validate budget scene session ids memory edit = some result)
    (happroved : result.outcome.approved = true) {after : Scene ℝ}
    (happly : scene.apply result.outcome.command = (after, .ok ())) {a b : EntityId} (hab : a ≠ b)
    {ea eb : Entity ℝ} (ha : after.get? a = some ea) (hb : after.get? b = some eb)
    (hakind : ea.kind ≠ .zone) (hbkind : eb.kind ≠ .zone) (hamesh : ea.mesh = [])
    (hbmesh : eb.mesh = []) (hunrelated : ¬after.Related a b) (hoverlap : after.Overlap a b) :
    (∃ e, scene.get? a = some e) ∧ (∃ e, scene.get? b = some e) ∧ ¬scene.Related a b ∧
      scene.Overlap a b := by
  have hchecks : v.checks edit = true := by
    unfold checks
    rw [hv.checking, hforced]
    rfl
  obtain ⟨q, header, description, hreach, _, houtcome, hcommand⟩ := validate_eq_some hchecks h
  rw [houtcome, Bool.not_eq_true'] at happroved
  -- no turn rejected anything, so the invariant went from the start to the end
  have hinv : q.Unspoiled scene v.config.collision.epsilon :=
    hreach.invariant_unfailed (unspoiled_start hscene hacyclic hedit session ids memory) happroved
      fun _ _ ha hstep hb => unspoiled_step? hv huse hepsilon hzone ha hstep hb
  rw [hcommand] at happly
  change scene.applyAll q.session.queues.approved = _ at happly
  rw [hinv.approved] at happly
  have hsolid : ∀ {x e}, after.get? x = some e → e.kind ≠ .zone → e.mesh = [] →
      after.sight.Solid x := by
    intro x e he hkind hmesh
    refine ⟨.ofEntity e, ?_, hkind, hmesh⟩
    rw [Scene.state_sight, WorkingSet.orMissing_eq_ok, Scene.surrogate?, he]
    rfl
  have hclash := (hinv.unspoiled after happly).1.kept a b hab (hsolid ha hakind hamesh)
    (hsolid hb hbkind hbmesh) (Scene.clash_sight.2 ⟨hunrelated, hoverlap⟩)
  have hthere : ∀ {x y}, scene.Overlap x y → ∃ e, scene.get? x = some e := by
    intro x y hxy
    obtain ⟨q, hq⟩ := View.Overlap.exists_state hxy
    rw [Scene.state_sight, WorkingSet.orMissing_eq_ok] at hq
    exact (Option.map_eq_some_iff.1 hq).imp fun _ he => he.1
  obtain ⟨hunrelated, hoverlap⟩ := Scene.clash_sight.1 hclash
  exact ⟨hthere hoverlap, hthere (View.Overlap.symm hoverlap), hunrelated, hoverlap⟩

end Validator

/-! ## A turn, and a crowd -/

/-- A unit cube. -/
noncomputable def cube (id : EntityId) : Entity ℝ := Entity.new id .model (.splat 1)

noncomputable def cubeShape : LocalBox ℝ := Surrogate.boxAround (.splat 1) (.splat 1) (.splat 0)

/-- Cubes at places less than their size apart overlap. -/
theorem Scene.overlap_of_cubes {s : Scene ℝ} {a b : EntityId} {qa qb : Surrogate ℝ}
    (ha : s.surrogate? a = some qa) (hb : s.surrogate? b = some qb)
    (hashape : qa.defaultShape = cubeShape) (hbshape : qb.defaultShape = cubeShape)
    (haenabled : qa.enabled = true) (hbenabled : qb.enabled = true) {t t' : Transform ℝ}
    (hat : s.sight.Placed (some a) t) (hbt : s.sight.Placed (some b) t') (ht : t' = t) :
    s.Overlap a b := by
  have hinside : cubeShape.extents.Inside (.splat 0) := by
    refine Surrogate.inside_boxAround.2 fun i => ?_
    fin_cases i <;> show |(0 : ℝ)| < |1 * 1| / 2 + 0 <;> norm_num
  -- the common point is the center, which is strictly inside both
  have hcovers : ∀ {x q}, s.surrogate? x = some q → q.defaultShape = cubeShape → q.enabled = true →
      s.sight.Placed (some x) t → s.sight.Covers x (t.point (.splat 0)) := by
    intro x q hq hshape henabled hplaced
    have hseen : s.sight.state x = .ok q := by
      rw [Scene.state_sight, WorkingSet.orMissing_eq_ok]
      exact hq
    exact (View.covers_iff_inside (s.fitted_sight x)).2
      ⟨q, t, .splat 0, hseen, henabled, hplaced, hshape ▸ hinside, rfl⟩
  exact ⟨_, hcovers ha hashape haenabled hat, hcovers hb hbshape hbenabled (ht ▸ hbt)⟩

namespace Validator

/-- Reals as texts, cut down to whole numbers. -/
noncomputable instance wholeText : NumberText ℝ where
  plain x := toString ⌊x⌋
  full x := toString ⌊x⌋
  ofText? s := s.toInt?.map (↑)

/-- A validator with nothing set that reckons with reals. -/
noncomputable def idealized : Validator ℝ Unit where
  routing := .standard .standard
  config := .standard

/-- The idealized validator has the default bindings. -/
theorem standard_idealized : idealized.Standard := ⟨rfl, rfl, Catalog.routing_builtin rfl⟩

/-- A platform with two cubes on it, one in the other. -/
noncomputable def carousel : Scene ℝ where
  entities := .ofList [(1, { cube 1 with parent := some 3 }), (2, { cube 2 with parent := some 3 }),
    (3, { cube 3 with children := [1, 2] })]

/-- The platform is turned. -/
noncomputable def turning : Command ℝ :=
  .single { id := 1 } (.rotate 3 Entity.noRotation ⟨.unit .y, 1⟩)

noncomputable def turned : Scene ℝ where
  entities := .ofList [(1, { cube 1 with parent := some 3 }), (2, { cube 2 with parent := some 3 }),
    (3, { cube 3 with children := [1, 2], rotation := ⟨.unit .y, 1⟩ })]

/-- The cubes overlap when they are turned with the platform, and did before. -/
theorem no_new_overlap_turning : ∃ result : Validation ℝ Unit,
    idealized.validate 64 carousel .fresh {} () turning = some result ∧
      result.outcome.approved = true ∧
    carousel.apply result.outcome.command = (turned, .ok ()) ∧ turned.Overlap 1 2 ∧
    ((∃ e, carousel.get? 1 = some e) ∧ (∃ e, carousel.get? 2 = some e) ∧ ¬carousel.Related 1 2 ∧
      carousel.Overlap 1 2) := by
  have hrun : (idealized.validate 64 carousel .fresh {} () turning).map (fun r =>
      (r.outcome.approved, carousel.apply r.outcome.command)) = some (true, turned, .ok ()) := by
        rfl
  obtain ⟨result, h, hrun⟩ := Option.map_eq_some_iff.1 hrun
  obtain ⟨happroved, happly⟩ := Prod.mk.inj hrun
  -- ranks in which every link falls, before the move and after it
  have hacyclic : carousel.Acyclic :=
    Scene.acyclic_of_rank (show carousel.falls (fun x => if x = 3 then 0 else 1) = true by
      decide +kernel)
  have hfall : ∀ {a b}, turned.Below a b → (if b = 3 then 0 else 1) < (if a = 3 then 0 else 1) :=
    Scene.rank_lt_of_below (show turned.falls (fun x => if x = 3 then 0 else 1) = true by
      decide +kernel)
  have hunrelated : ¬turned.Related 1 2 := fun h =>
    h.elim (fun h => absurd (hfall h) (by decide)) fun h => absurd (hfall h) (by decide)
  have hoverlap : turned.Overlap 1 2 :=
    Scene.overlap_of_cubes rfl rfl rfl rfl rfl rfl (.under rfl (.under rfl .root))
      (.under rfl (.under rfl .root)) rfl
  have hguarded : ∀ c ∈ turning.leaves, c.Guarded carousel := by
    intro c hc
    obtain rfl := List.mem_singleton.1 hc
    refine ⟨rfl, rfl, rfl, fun h e he => ?_⟩
    cases he
    intro x hx
    cases hx
    decide
  exact ⟨result, h, happroved, happly, hoverlap,
    no_new_overlap standard_idealized rfl le_rfl (by decide +kernel) hacyclic rfl rfl hguarded h
      happroved happly (by decide) rfl rfl (by decide) (by decide) rfl rfl hunrelated hoverlap⟩

end Validator

/-! ### A mesh that is not where its box is -/

/-- A triangle far from the origin. -/
noncomputable def spike : Triangle ℝ := ⟨⟨100, 100, 100⟩, ⟨100, 101, 100⟩, ⟨101, 100, 100⟩⟩

/-- The spike is too far out to meet a box that is not a hundred wide. -/
theorem not_meetsBox_spike {half : Vec3 ℝ} (hx : half.x < 100) :
    spike.meetsBox (.splat 0) half = false := by
  have hsame : spike.map (· - .splat 0) = spike := by ext <;> exact sub_zero _
  have hmisses : Triangle.misses (100 : ℝ) 100 101 half.x = true := by
    refine Bool.or_eq_true_iff.2 (.inl (decide_eq_true ?_))
    show half.x < min (min 100 100) 101
    norm_num
    exact hx
  have hfaces : Triangle.separatedByFaces half spike = true :=
    List.any_eq_true.2 ⟨.x, List.mem_cons_self, hmisses⟩
  unfold Triangle.meetsBox Triangle.meetsCentered
  rw [hsame, hfaces]
  simp

theorem not_contains_spike : Mesh.contains [spike] (.splat 0) = false := by
  have hb : spike.b - spike.a = ⟨0, 1, 0⟩ := by
    refine Vec3.ext (sub_self _) ?_ (sub_self _)
    show (101 : ℝ) - 100 = 1
    norm_num
  have hc : spike.c - spike.a = ⟨1, 0, 0⟩ := by
    refine Vec3.ext ?_ (sub_self _) (sub_self _)
    show (101 : ℝ) - 100 = 1
    norm_num
  have hs : (.splat 0 : Vec3 ℝ) - spike.a = ⟨-100, -100, -100⟩ := by ext <;> exact zero_sub _
  -- by the numbers: the ray passes the triangle far off
  have hray : spike.hitByRay (.splat 0) Mesh.rayDirection = false := by
    unfold Triangle.hitByRay
    rw [hb, hc, hs]
    simp only [Vec3.cross, Vec3.dot, Mesh.rayDirection, Triangle.parallelDet]
    norm_num
  unfold Mesh.contains Mesh.crossings
  simp [hray]

/-- Where a cube stands that has nothing above it. -/
noncomputable def standing : Transform ℝ :=
  Transform.identity.comp (.ofPlacement (.splat 0) Entity.noRotation)

/-- What stands at the origin is not moved. -/
theorem standing_eq : standing = .identity := by
  have hangle : ((Entity.noRotation : AxisAngle ℝ).angle == 0) = true := decide_eq_true rfl
  unfold standing Transform.ofPlacement Transform.ofAxisAngle
  rw [hangle, Bool.true_or, if_pos rfl, Transform.comp_identity]
  exact Transform.comp_identity _

theorem inverse?_identity : (Transform.identity : Transform ℝ).inverse? = some .identity := by
  have hdet : (Transform.identity : Transform ℝ).det = 1 := by
    simp [Transform.det, Transform.adjugate, Transform.identity, Transform.ofColumns,
      Vec3.triple, Vec3.unit, Vec3.splat]
  have hone : ((1 : ℝ) == 0) = false := decide_eq_false one_ne_zero
  unfold Transform.inverse?
  rw [hdet]
  simp only [hone]
  refine congrArg some ?_
  ext <;> simp [Transform.map, Vec4.map, Transform.adjugate, Transform.identity,
    Transform.ofColumns, Vec3.triple, Vec3.unit, Vec3.splat]

/-- A cube does not hit the spike, whatever the box around the spike. -/
theorem not_hitBy_spike (box : Obb ℝ) (epsilon : ℝ) :
    (View.Obstacle.mk box [spike]).hitBy epsilon (Obb.place cubeShape standing) = false := by
  have hcenter : cubeShape.extents.center = .splat 0 := by
    refine Vec3.coords_injective (funext fun i => ?_)
    exact (Surrogate.coords_center_boxAround ..).trans (by fin_cases i <;> rfl)
  have hhalf : cubeShape.extents.half.x < 100 := by
    refine lt_of_eq_of_lt (Surrogate.coords_half_boxAround (.splat 1) (.splat 1) (.splat 0) 0) ?_
    show |(1 : ℝ) * 1| / 2 + 0 < 100
    norm_num
  -- the spike stays clear of every box as small as this, and its ray never meets the cube
  have hmeets : (Obb.place cubeShape standing).meetsTriangle spike = false := by
    have hown : spike.map (Transform.identity : Transform ℝ).point = spike :=
      Triangle.ext (Transform.point_identity _) (Transform.point_identity _)
        (Transform.point_identity _)
    have hplacement : (Obb.place cubeShape standing).placement = .identity := standing_eq
    unfold Obb.meetsTriangle
    rw [hplacement, inverse?_identity]
    show (spike.map _).meetsBox cubeShape.extents.center cubeShape.extents.half = false
    rw [hown, hcenter]
    exact not_meetsBox_spike hhalf
  have hplaced : (Obb.place cubeShape standing).center = .splat 0 := by
    show standing.point cubeShape.extents.center = _
    rw [standing_eq, hcenter, Transform.point_identity]
  unfold View.Obstacle.hitBy
  rw [hplaced, not_contains_spike, List.any_cons, hmeets]
  exact Bool.and_false _

namespace Validator

/-- A cube with a spike for a mesh. -/
noncomputable def spiked : Entity ℝ := { cube 1 with mesh := [spike] }

/-- A cube is put in with a spike for a mesh, and then a second one in the same place. -/
noncomputable def crowding : Command ℝ :=
  .composite { id := 1 } "crowding"
    [.single { id := 2 } (.add .entity spiked), .single { id := 3 } (.add .entity (cube 2))]

noncomputable def crowded : Scene ℝ where
  entities := .ofList [(1, spiked), (2, cube 2)]

/-- The working set when the second cube's turn comes. -/
noncomputable def withSpiked : WorkingSet ℝ := (WorkingSet.bare 0).add (.ofEntity spiked)

/-- In an empty scene there is nothing that the spiked cube could hit. -/
theorem collide_spiked (header : Header) (margin : ℝ) (withDescendants : Bool) :
    (WorkingSet.bare 0).collide {} (.single header (.add .entity spiked)) { margin }
      withDescendants =
      .ok none := by
  cases withDescendants <;> rfl

/-- Beside the second cube it stands as an obstacle with its mesh. -/
theorem obstacle?_spiked :
    ((withSpiked.view {}).trying (.ofEntity (cube 2))).obstacle? none false 1 =
    .ok (some ⟨Obb.place cubeShape standing, [spike]⟩) := by
  have hmesh : (spike.map (·.times (.splat 1))).map standing.point = spike := by
    have hscaled : ∀ p : Vec3 ℝ, p.times (.splat 1) = p := fun p =>
      Vec3.ext (mul_one _) (mul_one _) (mul_one _)
    rw [standing_eq]
    refine Triangle.ext ?_ ?_ ?_ <;> exact (Transform.point_identity _).trans (hscaled _)
  have hseen : ((withSpiked.view {}).trying (.ofEntity (cube 2))).obstacle? none false 1 =
      .ok (some ⟨((Surrogate.ofEntity spiked).bounds false).transform standing,
        [(spike.map (·.times (.splat 1))).map standing.point]⟩) := rfl
  rw [hseen, hmesh, (Surrogate.fitted_ofEntity spiked).transform_bounds]
  rfl

/-- The spike hides the first cube from the second. -/
theorem collide_cube (header : Header) (margin : ℝ) (withDescendants : Bool) :
    withSpiked.collide {} (.single header (.add .entity (cube 2))) { margin } withDescendants =
      .ok none := by
  have hhits : ((withSpiked.view {}).trying (.ofEntity (cube 2))).hits { margin }
      [Obb.place cubeShape standing] [1] = .ok [] := by
    have hzone : ((withSpiked.view {}).trying (.ofEntity (cube 2))).scene.activeZone = none := rfl
    unfold View.hits
    rw [hzone, obstacle?_spiked]
    simp only [bind, Except.bind, List.any_cons, not_hitBy_spike]
    rfl
  -- the one known neighbour is 1, so the call is the test against it
  have hcollide : withSpiked.collide {} (.single header (.add .entity (cube 2))) { margin }
      withDescendants = (((withSpiked.view {}).trying (.ofEntity (cube 2))).hits { margin }
        [((Surrogate.ofEntity (cube 2)).bounds false).transform standing] [1] >>=
        fun hits => pure (if hits.isEmpty then none else some hits)) := by
    cases withDescendants <;> rfl
  have hcube : (Surrogate.ofEntity (cube 2)).shape false = cubeShape := rfl
  rw [hcollide, (Surrogate.fitted_ofEntity (cube 2)).transform_bounds, hcube, hhits]
  rfl

/-- What carries a mesh may be overlapped: in an empty scene two cubes go to the same place. -/
theorem not_no_new_overlap : ∃ result : Validation ℝ Unit, idealized.Standard ∧
    idealized.config.collision.useSurrogates = true ∧ 0 ≤ idealized.config.collision.epsilon ∧
    ({} : Scene ℝ).LinkConsistent ∧ ({} : Scene ℝ).Acyclic ∧
    (∀ x e, ({} : Scene ℝ).get? x = some e → e.mesh = []) ∧ crowding.header.forced = false ∧
    (∀ c ∈ crowding.leaves, c.Guarded ({} : Scene ℝ) ∧ c.header.dying = false) ∧
    idealized.validate 2 {} .fresh {} () crowding = some result ∧ result.outcome.approved = true ∧
    ({} : Scene ℝ).apply result.outcome.command = (crowded, .ok ()) ∧
    (crowded.get? 1).map (·.kind) = some .model ∧ (crowded.get? 2).map (·.kind) = some .model ∧
    ¬crowded.Related 1 2 ∧ crowded.Overlap 1 2 ∧ ({} : Scene ℝ).get? 1 = none := by
  -- two turns: first nothing is there, and then nothing that is hit
  obtain ⟨p, hp, hpfailed, hpsession⟩ :=
    step?_of_judge crowding (p := idealized.start .fresh {} () crowding) rfl
      (judge_add standard_idealized le_rfl rfl _ rfl rfl (collide_spiked ..) (collide_spiked ..))
        rfl
  have hworking : p.session.working = withSpiked := by
    rw [hpsession]
    rfl
  have hpending : p.session.queues.pending = [.single { id := 3 } (.add .entity (cube 2))] := by
    rw [hpsession]
    rfl
  have hcube : ∀ margin withDescendants, p.session.working.collide {} (.single { id := 3 }
      (.add .entity (cube 2))) { margin } withDescendants =
        .ok none := fun margin withDescendants => by
    rw [hworking]
    exact collide_cube ..
  obtain ⟨q, hq, hqfailed, hqsession⟩ := step?_of_judge crowding hpending
    (judge_add standard_idealized le_rfl rfl p rfl rfl (hcube ..) (hcube ..)) rfl
  rw [hpsession] at hqsession
  have hdone : q.session.queues.pending = [] := by
    rw [hqsession]
    rfl
  have hrun : idealized.run {} crowding 2 (idealized.start .fresh {} () crowding) = some q :=
    (run_of_step? 1 hp).trans ((run_of_step? 0 hq).trans (run_of_pending hdone))
  obtain ⟨result, header, description, h, happroved, hcommand⟩ := validate_of_run rfl hrun
  have hfall : ∀ {a b}, crowded.Below a b → 0 < 0 :=
    Scene.rank_lt_of_below (show crowded.falls (fun _ => 0) = true by decide +kernel)
  have hunrelated : ¬crowded.Related 1 2 := fun h =>
    h.elim (fun h => Nat.lt_irrefl _ (hfall h)) fun h => Nat.lt_irrefl _ (hfall h)
  have hadded : ∀ {id e}, e.kind = .model →
      (Command.single { id } (.add .entity e)).Guarded ({} : Scene ℝ) := by
    intro id e hkind
    refine ⟨rfl, rfl, rfl, fun h e' he => ?_⟩
    cases he
    exact fun hzone => EntityKind.noConfusion (hkind.symm.trans hzone)
  have hguarded : ∀ c ∈ crowding.leaves, c.Guarded ({} : Scene ℝ) ∧ c.header.dying = false := by
    intro c hc
    rcases List.mem_cons.1 hc with rfl | hc
    · exact ⟨hadded rfl, rfl⟩
    · obtain rfl := List.mem_singleton.1 hc
      exact ⟨hadded rfl, rfl⟩
  refine ⟨result, standard_idealized, rfl, le_rfl, by decide, fun _ h => ?_, nofun, rfl,
    hguarded, h, ?_, ?_, rfl, rfl, hunrelated, ?_, rfl⟩
  · obtain ⟨_, ⟨_, hc, _⟩, _⟩ := Relation.TransGen.head'_iff.1 h
    cases hc
  · rw [happroved, hqfailed, hpfailed]
    rfl
  · rw [hcommand, hqsession]
    rfl
  · exact Scene.overlap_of_cubes rfl rfl rfl rfl rfl rfl (.under rfl .root) (.under rfl .root) rfl

end Validator

end SceneGuard
