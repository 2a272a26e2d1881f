import SceneGuard.Proofs.Speculation.Agreement
import SceneGuard.Proofs.Speculation.Application
import SceneGuard.Proofs.Speculation.Placement

/-!
# What a collision query reports

A query tests the boxes of an entity and of everything below it (`View.Boxed`) against whatever can
be hit (`View.Stands`), and reports what is in the way (`View.InTheWay`). Main statements:

* `mem_hits` — of the targets, those are found that a probe hits;
* `reports_neighbours` — the neighbours of an entity are exactly what is in the way, in ascending
  order;
* `collide_extended` — so a query about a command reports what is in the way of its entity
  afterwards.
-/

namespace SceneGuard

open Relation

variable {α : Type} [Scalar α]

namespace View

variable {v : View α} {id x : EntityId} {extended : Bool} {options : CollisionOptions α}

/-!
## Probes and obstacles

A query compares probes with obstacles. A probe is a placed box; an obstacle has its mesh as well,
and is never a zone.
-/

/-- The placed box of an entity that is enabled. -/
def Boxed (v : View α) (id : EntityId) (extended : Bool) (box : Obb α) : Prop :=
  ∃ s t, v.state id = .ok s ∧ s.enabled = true ∧ v.Placed (some id) t ∧
    box = (s.bounds extended).transform t

/-- The placed box and the placed mesh of an entity that is enabled and no zone. -/
def Stands (v : View α) (id : EntityId) (extended : Bool) (o : Obstacle α) : Prop :=
  ∃ s t, v.state id = .ok s ∧ s.enabled = true ∧ s.kind ≠ .zone ∧ v.Placed (some id) t ∧
    o = ⟨(s.bounds extended).transform t, s.scaledMesh.map (·.map t.point)⟩

theorem worldBounds_eq_some {bounds : Option (Obb α)} (h : v.worldBounds id extended = .ok bounds)
    {box : Obb α} : bounds = some box ↔ v.Boxed id extended box := by
  constructor
  · rintro rfl
    obtain ⟨s, t, hs, henabled, hplaced, -, hbox⟩ := worldBounds_eq_ok.1 h
    exact ⟨s, t, hs, henabled, hplaced, hbox⟩
  · rintro ⟨s, t, hs, henabled, hplaced, rfl⟩
    unfold worldBounds at h
    rw [hs] at h
    simp only [bind, Except.bind, henabled, if_true] at h
    obtain ⟨t', ht', h⟩ := bind_eq_ok.1 h
    obtain ⟨hplaced', -⟩ := worldTransform_eq_ok.1 ht'
    rw [← hplaced'.unique hplaced]
    exact (pure_eq_ok.1 h).symm

/-- Where the zone does not rule an entity out, it stands where it is placed. -/
theorem placed_eq_some {s : Surrogate α} (hs : v.state x = .ok s) (henabled : s.enabled = true)
    (hkind : s.kind ≠ .zone) {found : Option (Obstacle α)}
    (h : (v.worldTransform x >>= fun world =>
      pure (some ⟨(s.bounds extended).transform world, s.scaledMesh.map (·.map world.point)⟩)) =
        .ok found)
    {o : Obstacle α} : found = some o ↔ v.Stands x extended o := by
  obtain ⟨t, ht, h⟩ := bind_eq_ok.1 h
  obtain ⟨hplaced, -⟩ := worldTransform_eq_ok.1 ht
  obtain rfl := pure_eq_ok.1 h
  rw [Option.some.injEq]
  constructor
  · rintro rfl
    exact ⟨s, t, hs, henabled, hkind, hplaced, rfl⟩
  · rintro ⟨s', t', hs', -, -, hplaced', rfl⟩
    rw [hs] at hs'
    cases hs'
    rw [hplaced.unique hplaced']

/-- An obstacle is given for what stands there, and inside the zone where there is one. -/
theorem obstacle?_eq_some {zone : Option EntityId} {found : Option (Obstacle α)}
    (h : v.obstacle? zone extended x = .ok found) {o : Obstacle α} :
    found = some o ↔ v.Stands x extended o ∧ ∀ z, zone = some z → TransGen v.ParentLink x z := by
  unfold obstacle? at h
  obtain ⟨s, hs, h⟩ := bind_eq_ok.1 h
  -- disabled entities and zones stand in nobody's way, and the code looks no further
  by_cases hidle : !s.enabled || s.kind = .zone
  · rw [if_pos hidle] at h
    obtain rfl := pure_eq_ok.1 h
    refine ⟨nofun, ?_⟩
    rintro ⟨⟨s', _, hs', henabled, hkind, _⟩, _⟩
    rw [hs] at hs'
    cases hs'
    simp [henabled, hkind] at hidle
  · rw [if_neg hidle] at h
    obtain ⟨henabled, hkind⟩ : s.enabled = true ∧ s.kind ≠ .zone := by simpa using hidle
    cases zone with
    | none =>
      rw [placed_eq_some hs henabled hkind h]
      exact (and_iff_left nofun).symm
    | some z =>
      -- a zone asks for the walk up, and whether it is passed on it
      obtain ⟨chain, hchain, h⟩ := bind_eq_ok.1 h
      have hmem : chain.contains z = true ↔ TransGen v.ParentLink x z :=
        List.contains_iff_mem.trans (mem_ancestors hchain)
      by_cases hz : chain.contains z = true
      · rw [hz] at h
        rw [placed_eq_some hs henabled hkind h]
        refine (and_iff_left ?_).symm
        rintro _ ⟨⟩
        exact hmem.1 hz
      · rw [Bool.not_eq_true] at hz
        rw [hz] at h
        obtain rfl := pure_eq_ok.1 h
        refine ⟨nofun, fun ⟨_, hin⟩ => ?_⟩
        have hin := hmem.2 (hin z rfl)
        rw [hz] at hin
        cases hin

/-! ## Hits -/

/-- What stands at an entity of the active zone is hit by one of the probes. -/
def Hit (v : View α) (options : CollisionOptions α) (probes : List (Obb α)) (x : EntityId) : Prop :=
  ∃ o, v.Stands x options.extendTargets o ∧
    (∀ z, v.scene.activeZone = some z → TransGen v.ParentLink x z) ∧
    ∃ probe ∈ probes, o.hitBy (v.working.epsilon + options.margin) probe = true

/-- An entity is hit when it stands in the way of one of the probes. -/
theorem any_hitBy {found : Option (Obstacle α)}
    (h : v.obstacle? v.scene.activeZone options.extendTargets x = .ok found)
    (probes : List (Obb α)) :
    found.any (fun o => probes.any (o.hitBy (v.working.epsilon + options.margin))) = true ↔
      v.Hit options probes x := by
  unfold Hit
  simp only [← and_assoc, ← obstacle?_eq_some h]
  simp [Option.any_eq_true]

/-- Of the targets, those are found that one of the probes hits. -/
theorem mem_hits {probes : List (Obb α)} {targets found : List EntityId}
    (h : v.hits options probes targets = .ok found) :
    found.Sublist targets ∧ ∀ x, x ∈ found ↔ x ∈ targets ∧ v.Hit options probes x := by
  -- along the targets, since the code keeps or drops each in turn
  induction targets generalizing found with
  | nil =>
    cases h
    simp
  | cons target rest ih =>
    obtain ⟨obstacle, hobstacle, h⟩ := bind_eq_ok.1 h
    obtain ⟨more, hmore, h⟩ := bind_eq_ok.1 h
    obtain ⟨hsub, hmem⟩ := ih hmore
    have hhit := any_hitBy hobstacle probes
    have hfound :
        (if obstacle.any (fun o => probes.any (o.hitBy (v.working.epsilon + options.margin)))
        then target :: more else more) = found := by
      cases obstacle <;> exact pure_eq_ok.1 h
    subst hfound
    split
    · next hyes =>
      refine ⟨hsub.cons_cons target, fun x => ?_⟩
      rw [List.mem_cons, List.mem_cons, hmem]
      constructor
      · rintro (rfl | ⟨hx, hxhit⟩)
        · exact ⟨.inl rfl, hhit.1 hyes⟩
        · exact ⟨.inr hx, hxhit⟩
      · rintro ⟨rfl | hx, hxhit⟩
        · exact .inl rfl
        · exact .inr ⟨hx, hxhit⟩
    · next hno =>
      refine ⟨hsub.cons target, fun x => ?_⟩
      rw [List.mem_cons, hmem]
      constructor
      · rintro ⟨hx, hxhit⟩
        exact ⟨.inr hx, hxhit⟩
      · rintro ⟨rfl | hx, hxhit⟩
        · exact absurd (hhit.2 hxhit) hno
        · exact ⟨hx, hxhit⟩

/-!
## What is in the way

An answer lists numbers in ascending order, each of them once, so it is settled by which numbers are
in it. To describe the query it is therefore enough to say what is in the way.
-/

/--
What one of the tested entities of the family of `id` runs into. The family is what is above and
what is below `id`, as far as it is known.
-/
structure InTheWay (v : View α) (options : CollisionOptions α) (tested : EntityId → Prop)
    (id x : EntityId) : Prop where
  known : v.Knows x
  other : x ≠ id
  notAbove : ¬TransGen v.ParentLink id x
  notBelow : ¬TransGen v.KnownLink x id
  inZone : ∀ z, v.scene.activeZone = some z → TransGen v.ParentLink x z
  hit : ∃ o y box, v.Stands x options.extendTargets o ∧ tested y ∧
    v.Boxed y options.extendEntity box ∧
    o.hitBy (v.working.epsilon + options.margin) box = true

end View

/-- An answer that lists what is so, in ascending order, and that is none where nothing is so. -/
structure Reports (found : Option (List EntityId)) (P : EntityId → Prop) : Prop where
  ascending : ∀ l, found = some l → l.Pairwise (· < ·)
  mem : ∀ l, found = some l → ∀ x, x ∈ l ↔ P x
  nothing : found = none ↔ ∀ x, ¬P x

/-- There is one report of what has a property. -/
theorem Reports.unique {found found' : Option (List EntityId)} {P : EntityId → Prop}
    (h : Reports found P) (h' : Reports found' P) : found = found' := by
  cases found with
  | none => exact (h'.nothing.2 (h.nothing.1 rfl)).symm
  | some l =>
    cases found' with
    | none => exact h.nothing.2 (h'.nothing.1 rfl)
    | some l' =>
      have hl := (h.ascending l rfl).eq_of_mem_iff (h'.ascending l' rfl) fun {x} =>
        (h.mem l rfl x).trans (h'.mem l' rfl x).symm
      rw [hl]

/-- Whatever is reported has the property, and whatever has it is reported. -/
theorem Reports.mem_iff {found : Option (List EntityId)} {P : EntityId → Prop} (h : Reports found P)
    {x : EntityId} : (∃ l, found = some l ∧ x ∈ l) ↔ P x := by
  constructor
  · rintro ⟨l, hl, hx⟩
    exact (h.mem l hl x).1 hx
  · intro hx
    cases found with
    | none => exact absurd hx (h.nothing.1 rfl x)
    | some l => exact ⟨l, rfl, (h.mem l rfl x).2 hx⟩

/-- An ascending list of all that has a property is a report of it,
and no list at all if there is none. -/
theorem reports_of_mem {P : EntityId → Prop} {l : List EntityId} (hl : l.Pairwise (· < ·))
    (h : ∀ x, x ∈ l ↔ P x) : Reports (if l.isEmpty then none else some l) P := by
  cases l with
  | nil => exact ⟨nofun, nofun, iff_of_true rfl fun x hx => List.not_mem_nil ((h x).2 hx)⟩
  | cons a l =>
    refine ⟨?_, ?_, iff_of_false nofun fun hnone => hnone a ((h a).1 List.mem_cons_self)⟩
    · rintro _ ⟨⟩
      exact hl
    · rintro _ ⟨⟩
      exact h

namespace View

variable {v : View α} {id : EntityId} {options : CollisionOptions α}

/-- The targets outside the family that a tested entity hits are what is in the way. -/
theorem reports_hits {above below ys : List EntityId} {tested : EntityId → Prop}
    {found : Option (List EntityId)} (habove : v.ancestors id = .ok above)
    (hbelow : v.descendants id = .ok below) (htested : ∀ y, y ∈ ys ↔ tested y)
    (h : (do
      let probes ← ys.mapM fun y => v.worldBounds y options.extendEntity
      let targets := v.knownIds.filter fun t => !(id :: above ++ below).contains t
      let hits ← v.hits options (probes.filterMap fun b => b) targets
      return if hits.isEmpty then none else some hits) = .ok found) :
    Reports found (v.InTheWay options tested id) := by
  obtain ⟨bounds, hbounds, h⟩ := bind_eq_ok.1 h
  obtain ⟨hits, hhits, h⟩ := bind_eq_ok.1 h
  rw [← pure_eq_ok.1 h]
  obtain ⟨hsub, hmem⟩ := mem_hits hhits
  -- the known ids ascend, and what is kept of them does too
  refine reports_of_mem ((v.pairwise_knownIds.filter _).sublist hsub) fun x => ?_
  -- the targets and the probes, each as a property of the view
  have htarget : x ∈ v.knownIds.filter (fun t => !(id :: above ++ below).contains t) ↔
      v.Knows x ∧ x ≠ id ∧ ¬TransGen v.ParentLink id x ∧ ¬TransGen v.KnownLink x id := by
    rw [List.mem_filter, mem_knownIds_iff, Bool.not_eq_true', ← Bool.not_eq_true,
      List.contains_iff_mem, List.mem_append, List.mem_cons, mem_ancestors habove,
      mem_descendants_iff hbelow]
    tauto
  have hprobe : ∀ box, box ∈ bounds.filterMap (fun b => b) ↔
      ∃ y, tested y ∧ v.Boxed y options.extendEntity box := by
    intro box
    rw [List.mem_filterMap]
    constructor
    · rintro ⟨b, hb, hbox⟩
      obtain ⟨y, hy, hyb⟩ := exists_of_mem_mapM hbounds hb
      exact ⟨y, (htested y).1 hy, (worldBounds_eq_some hyb).1 hbox⟩
    · rintro ⟨y, hy, hbox⟩
      obtain ⟨b, hb, hyb⟩ := exists_mem_of_mapM hbounds ((htested y).2 hy)
      exact ⟨b, hb, (worldBounds_eq_some hyb).2 hbox⟩
  rw [hmem, htarget]
  constructor
  · rintro ⟨⟨hknown, hother, habove, hbelow⟩, o, hstands, hzone, box, hbox, hhit⟩
    obtain ⟨y, hy, hbox⟩ := (hprobe box).1 hbox
    exact ⟨hknown, hother, habove, hbelow, hzone, o, y, box, hstands, hy, hbox, hhit⟩
  · rintro ⟨hknown, hother, habove, hbelow, hzone, o, y, box, hstands, hy, hbox, hhit⟩
    exact ⟨⟨hknown, hother, habove, hbelow⟩, o, hstands, hzone, box,
      (hprobe box).2 ⟨y, hy, hbox⟩, hhit⟩

/-- What a query about an entity tests: the entity itself and,
where it asks for it, what is known below. -/
def Tested (v : View α) (withDescendants : Bool) (id y : EntityId) : Prop :=
  y = id ∨ withDescendants = true ∧ TransGen v.KnownLink y id

/-- The neighbours of an entity are what is in the way of something tested. -/
theorem reports_tested {withDescendants : Bool} {found : Option (List EntityId)}
    (h : v.neighbours id options withDescendants = .ok found) :
    Reports found (v.InTheWay options (v.Tested withDescendants id) id) := by
  obtain ⟨below, hbelow, h⟩ := bind_eq_ok.1 h
  obtain ⟨above, habove, h⟩ := bind_eq_ok.1 h
  have htested : ∀ y, y ∈ (if withDescendants then id :: below else [id]) ↔
      v.Tested withDescendants id y := by
    intro y
    unfold Tested
    cases withDescendants <;> simp [mem_descendants_iff hbelow]
  exact reports_hits habove hbelow htested h

/-- **The neighbours of an entity**, with everything below it, are what is in the way of one of
these. -/
theorem reports_neighbours {found : Option (List EntityId)}
    (h : v.neighbours id options true = .ok found) :
    Reports found (v.InTheWay options (ReflTransGen v.KnownLink · id) id) := by
  have htested : v.Tested true id = (ReflTransGen v.KnownLink · id) := by
    funext y
    rw [Tested, reflTransGen_iff_eq_or_transGen, @eq_comm _ id, eq_self, true_and]
  exact htested ▸ reports_tested h

end View

/-- An edit that places its entity makes something of any surrogate. -/
theorem Surrogate.exists_edit {e : Edit α} (h : e.kind.places = true) (q : Surrogate α) :
    ∃ s, q.edit e = some s := by
  cases e with
  | remove | changeProperty => cases h
  | _ => exact ⟨_, rfl⟩

namespace WorkingSet

variable {w : WorkingSet α} {scene : Scene α} {header : Header} {e : Edit α}
  {options : CollisionOptions α}

/--
**What a collision query reports.** A command that places its entity is tried on the entity that is
filed at its number. If that has another number itself, nothing is reported. Otherwise the command
makes a surrogate of it, and if this is enabled and no zone, the query reports what is in the way
when the surrogate takes the place of the entity: of the entity, or of something known below it.
-/
theorem collide_extended (hplaces : e.kind.places = true) {found : Option (List EntityId)}
    (h : w.collide scene (.single header e) options true = .ok found) :
    ∃ q, (w.viewFor scene options).ground e = .ok q ∧ (q.id ≠ e.entityId → found = none) ∧
      (q.id = e.entityId → ∃ s, q.edit e = some s ∧ (s.kind ≠ .zone → s.enabled = true →
        Reports found (((w.viewFor scene options).trying s).InTheWay options
          (ReflTransGen ((w.viewFor scene options).trying s).KnownLink · e.entityId)
            e.entityId))) := by
  have hremove : (Command.single header e).kind.isRemove = false := by
    cases e <;> first | rfl | cases hplaces
  have hspeculate := (w.viewFor scene options).speculate_single header e
  cases hq : (w.viewFor scene options).ground e with
  | error f =>
    rw [collide_viewFor, hremove, hspeculate, hq] at h
    cases h
  | ok q =>
    rw [hq] at hspeculate
    refine ⟨q, rfl, fun hid => ?_, fun hid => ?_⟩
    · -- a ground under another id is left as it is, and the call finds nothing
      have hnone : q.apply (.single header e) = none := if_neg (Ne.symm hid)
      rw [collide_viewFor, hremove, hspeculate, Except.map, hnone] at h
      exact (Except.ok.inj h).symm
    · obtain ⟨s, hs⟩ := q.exists_edit hplaces
      refine ⟨s, hs, fun hkind henabled => ?_⟩
      have hmade : q.apply (.single header e) = some s := (if_pos hid.symm).trans hs
      rw [Except.map, hmade] at hspeculate
      rw [collide_of_speculate hremove hspeculate hkind henabled, Surrogate.edit_id hid hs] at h
      exact View.reports_neighbours h

end WorkingSet

/-- A hall with a cart, a load that sticks out of it, and a post, and another post outside. -/
def hall : Scene Float where
  entities := .ofList [(1, { Entity.new 1 .zone (.splat 9) with children := [2, 3] }),
    (2, { Entity.new 2 .model (.splat 1) with parent := some 1, children := [4] }),
    (3, { Entity.new 3 .model (.splat 1) with parent := some 1, position := ⟨3, 0, 0⟩ }),
    (4, { Entity.new 4 .model (.splat 1) with parent := some 2, position := ⟨2, 0, 0⟩ }),
    (5, { Entity.new 5 .model (.splat 1) with position := ⟨3, 0, 0⟩ })]
  activeZone := some 1

/-- Entity 2 goes half a step to the right. -/
def rolling : Edit Float := .move 2 (.splat 0) ⟨0.5, 0, 0⟩

/-- What a query about that sees. -/
def rolledIn (scene : Scene Float) : View Float :=
  { scene, working := .bare 0, candidate := (scene.surrogate? 2).bind (·.edit rolling) }

/-- The load runs into the post in the hall. -/
theorem collide_extended_hall :
    (WorkingSet.bare 0).collide hall (.single { id := 1 } rolling) { margin := 0 } true =
      .ok (some [3]) ∧
    Reports (some [3])
      ((rolledIn hall).InTheWay { margin := 0 } (ReflTransGen (rolledIn hall).KnownLink · 2) 2) :=
        by
  have h : (WorkingSet.bare 0).collide hall (.single { id := 1 } rolling) { margin := 0 } true =
      .ok (some [3]) := by decide +kernel
  obtain ⟨q, hq, -, hreports⟩ := WorkingSet.collide_extended rfl h
  cases hq
  obtain ⟨s, hs, hreports⟩ := hreports rfl
  cases hs
  exact ⟨h, hreports (by decide) rfl⟩

/-- A cart with a zone around it, and a post in that zone. -/
def bay : Scene Float where
  entities := .ofList [(2, { Entity.new 2 .model (.splat 1) with children := [4] }),
    (3, { Entity.new 3 .model (.splat 1) with position := ⟨3, 0, 0⟩ }),
    (4, { Entity.new 4 .zone (.splat 9) with parent := some 2 })]

/-- A zone with a cart in it that sticks out, and a post beside it. -/
def porch : Scene Float where
  entities := .ofList [(2, { Entity.new 2 .zone (.splat 1) with children := [4] }),
    (3, { Entity.new 3 .model (.splat 1) with position := ⟨3, 0, 0⟩ }),
    (4, { Entity.new 4 .model (.splat 1) with parent := some 2, position := ⟨2, 0, 0⟩ })]

/-- The entity or something known below it, unless that is a zone. -/
def View.Solidly (v : View α) (id y : EntityId) : Prop :=
  ReflTransGen v.KnownLink y id ∧ ∀ s, v.state y = .ok s → s.kind ≠ .zone

/-- Solid is what is tested for an entity: itself and those below, without the zones. -/
theorem View.mem_solidly {v : View α} {id y : EntityId} {below : List EntityId}
    (hbelow : v.descendants id = .ok below) :
    y ∈ (id :: below).filter (fun y => (v.state y).toOption.all (·.kind ≠ .zone)) ↔
      v.Solidly id y := by
  unfold Solidly
  rw [List.mem_filter, List.mem_cons, mem_descendants_iff hbelow, reflTransGen_iff_eq_or_transGen,
    @eq_comm _ id]
  cases v.state y <;> simp [Except.toOption]

/-- Zones below the entity are tested as anything else is, and below a zone nothing is. -/
theorem not_collide_extended :
    (WorkingSet.bare 0).collide bay (.single { id := 1 } rolling) { margin := 0 } true =
      .ok (some [3]) ∧
    ¬Reports (some [3]) ((rolledIn bay).InTheWay { margin := 0 } ((rolledIn bay).Solidly 2) 2) ∧
    (WorkingSet.bare 0).collide porch (.single { id := 1 } rolling) { margin := 0 }
      true = .ok none ∧
    ¬Reports none ((rolledIn porch).InTheWay { margin := 0 } ((rolledIn porch).Solidly 2) 2) := by
  -- what there would be to report if the boxes of zones were left out, and nothing else
  have hbay :
      Reports none ((rolledIn bay).InTheWay { margin := 0 } ((rolledIn bay).Solidly 2) 2) := by
    have habove : (rolledIn bay).ancestors 2 = .ok [] := by decide
    have hbelow : (rolledIn bay).descendants 2 = .ok [4] := by decide
    exact View.reports_hits habove hbelow (fun y => View.mem_solidly hbelow) (by decide +kernel)
  have hporch : Reports (some [3])
      ((rolledIn porch).InTheWay { margin := 0 } ((rolledIn porch).Solidly 2) 2) := by
    have habove : (rolledIn porch).ancestors 2 = .ok [] := by decide
    have hbelow : (rolledIn porch).descendants 2 = .ok [4] := by decide
    exact View.reports_hits habove hbelow (fun y => View.mem_solidly hbelow) (by decide +kernel)
  refine ⟨by decide +kernel, fun h => ?_, by decide +kernel, fun h => ?_⟩
  · cases h.unique hbay
  · cases h.unique hporch

end SceneGuard
