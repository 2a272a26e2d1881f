import SceneGuard.Number.Binary
import SceneGuard.Proofs.Speculation.Agreement
import SceneGuard.Proofs.Speculation.Placement

/-!
# What an entity carries

A placement in the world is the placement of the parent, followed by the placement relative to it.
Down from an entity, one such step after the other gives the placement of everything below it,
through what lies between (`View.Between`). None of that is the entity itself, so a candidate for
the entity carries with it, unchanged, what hangs below. Main statements:

* `Between.placed` — whatever stands between is passed from the upper end down to the lower;
* `Between.settled` — a candidate for the upper end changes nothing between;
* `worldTransform_composes` — the placement that a query computes for an entity is made from that of
  its parent, and the boxes below a candidate from its placement.
-/

namespace SceneGuard

/-- Where the first of a line stands, when each stands relative to the next,
and the last one to `t`. -/
def carried {α : Type} [Scalar α] (t : Transform α) : List (Surrogate α) → Transform α
  | [] => t
  | s :: line => (carried t line).comp s.localTransform

namespace View

variable {α : Type} [Scalar α] {v w : View α} {x d : EntityId} {between : List EntityId}
  {line : List (Surrogate α)}

/-!
## Between an entity and one above it

What stands between is given by the parents from the lower end on. The upper end is not among it,
and so a candidate for the upper end leaves it as it was.
-/

/--
On the way up from `d` to `x` stand first `d` and then those of `between`; they are seen, one after
the other, as `line` has them.
-/
inductive Between (v : View α) (x : EntityId) :
    EntityId → List EntityId → List (Surrogate α) → Prop where
  | child {d : EntityId} {s : Surrogate α} (hs : v.state d = .ok s) (hp : s.parent = some x) :
      Between v x d [] [s]
  | link {d p : EntityId} {s : Surrogate α} {between : List EntityId} {line : List (Surrogate α)}
      (hs : v.state d = .ok s) (hp : s.parent = some p) (hrest : Between v x p between line) :
      Between v x d (p :: between) (s :: line)

/-- Between an entity and what is above it there is a line of surrogates. -/
theorem exists_between (h : Relation.TransGen v.ParentLink d x) :
    ∃ between line, v.Between x d between line := by
  induction h using Relation.TransGen.head_induction_on with
  | single hl =>
    obtain ⟨s, hs, hp⟩ := hl
    exact ⟨_, _, .child hs hp⟩
  | head hl _ ih =>
    obtain ⟨s, hs, hp⟩ := hl
    obtain ⟨between, line, hbetween⟩ := ih
    exact ⟨_, _, .link hs hp hbetween⟩

namespace Between

/-- Each on the line is seen, and its surrogate is the one in the line. -/
theorem seen (h : v.Between x d between line) :
    List.Forall₂ (fun y s => v.state y = .ok s) (d :: between) line := by
  induction h with
  | child hs => exact .cons hs .nil
  | link hs _ _ ih => exact .cons hs ih

theorem leads_up (h : v.Between x d between line) :
    ∀ y ∈ d :: between, Relation.TransGen v.ParentLink y x := by
  induction h with
  | child hs hp =>
    intro y hy
    obtain rfl := List.mem_singleton.1 hy
    exact .single ⟨_, hs, hp⟩
  | @link d p s between line hs hp _ ih =>
    intro y hy
    rcases List.mem_cons.1 hy with rfl | hy
    · exact .head ⟨s, hs, hp⟩ (ih p List.mem_cons_self)
    · exact ih y hy

/-- The line of parents goes on from the upper end. -/
theorem lineage {rest : List EntityId} (h : v.Between x d between line)
    (hx : v.Lineage (some x) (x :: rest)) : v.Lineage (some d) (d :: between ++ x :: rest) := by
  induction h with
  | child hs hp => exact .link hs (hp ▸ hx)
  | link hs hp _ ih => exact .link hs (hp ▸ ih)

/-- A candidate changes nothing below it. -/
theorem settled {s : Surrogate α} (h : (v.trying s).Between s.id d between line)
    (hstraight : ¬Relation.TransGen (v.trying s).ParentLink s.id s.id) :
    List.Forall₂ (fun y q => v.settled y = .ok q) (d :: between) line := by
  have hne : ∀ y ∈ d :: between, s.id ≠ y := fun y hy heq => hstraight (heq ▸ h.leads_up y hy)
  have hseen := h.seen
  generalize d :: between = ys at hne hseen
  clear h
  induction hseen with
  | nil => exact .nil
  | cons hy _ ih =>
    obtain ⟨hne', hrest⟩ := List.forall_mem_cons.1 hne
    rw [state_trying, if_neg hne'] at hy
    exact .cons hy (ih hrest)

variable {t : Transform α}

/-- Whatever stands between is passed from the upper end down to the lower. -/
theorem placed (h : v.Between x d between line) (hx : v.Placed (some x) t) :
    v.Placed (some d) (carried t line) := by
  induction h with
  | child hs hp => exact .under hs (hp ▸ hx)
  | link hs hp _ ih => exact .under hs (hp ▸ ih)

end Between

/-! ## Placements and boxes -/

/-- The way up from a placed entity begins with its parent. -/
theorem Placed.ancestors_eq {id p : EntityId} {s : Surrogate α} {u : Transform α}
    (hs : v.state id = .ok s) (hp : s.parent = some p) (h : v.Placed (some p) u) :
    ∃ chain, v.ancestors p = .ok chain ∧ v.ancestors id = .ok (p :: chain) := by
  obtain ⟨chain, hchain⟩ := h.exists_lineage
  cases hchain with
  | @link _ q rest hq hrest =>
    have habove : v.Lineage (some p) (p :: rest) := .link hq hrest
    have hline : v.Lineage (some id) (id :: p :: rest) := .link hs (hp ▸ habove)
    exact ⟨rest, habove.ancestors_eq, hline.ancestors_eq⟩

/-- What is placed below an entity is carried by it, through what stands between. -/
theorem Placed.exists_carried {place t : Transform α} (hx : v.Placed (some x) place)
    (hd : v.Placed (some d) t) (hway : Relation.TransGen v.ParentLink d x) :
    ∃ between line rest, v.Between x d between line ∧
      v.ancestors d = .ok (between ++ x :: rest) ∧ t = carried place line := by
  obtain ⟨between, line, hbetween⟩ := exists_between hway
  obtain ⟨chain, hchain⟩ := hx.exists_lineage
  cases hchain with
  | link hs hrest =>
    exact ⟨between, line, _, hbetween, (hbetween.lineage (.link hs hrest)).ancestors_eq,
      hd.unique (hbetween.placed hx)⟩

/--
An entity stands relative to its parent, in every view: its placement is the placement of the parent
followed by its own, and the way up from it is the parent and then the way up from there. So a
command for an entity carries what is below along: a box below stands where the new placement of the
entity, and the placements in between as they were before the command, put it.
-/
theorem worldTransform_composes (v : View α) :
    (∀ {id p : EntityId} {s : Surrogate α} {t u : Transform α}, v.state id = .ok s →
      s.parent = some p →
      v.worldTransform id = .ok t → v.worldTransform p = .ok u →
      t = u.comp s.localTransform ∧
        ∃ chain, v.ancestors p = .ok chain ∧ v.ancestors id = .ok (p :: chain)) ∧
    ∀ {c : Command α} {s : Surrogate α} {place : Transform α} {d : EntityId} {extended : Bool}
    {box : Obb α},
      v.speculate c = .ok (some s) → Relation.TransGen (v.trying s).ParentLink d s.id →
      (v.trying s).worldTransform s.id = .ok place → (v.trying s).worldBounds d extended =
        .ok (some box) →
      ∃ between own line rest, (v.trying s).ancestors d = .ok (between ++ s.id :: rest) ∧
        List.Forall₂ (fun y q => v.settled y = .ok q) (d :: between) (own :: line) ∧
        box = (own.bounds extended).transform (carried place (own :: line)) := by
  constructor
  · intro id p s t u hs hp ht hu
    obtain ⟨hplaced, _⟩ := worldTransform_eq_ok.1 ht
    obtain ⟨habove, _⟩ := worldTransform_eq_ok.1 hu
    have hunder : v.Placed (some id) (u.comp s.localTransform) := .under hs (hp ▸ habove)
    exact ⟨hplaced.unique hunder, habove.ancestors_eq hs hp⟩
  · intro c s place d extended box _ hway hplace hbox
    obtain ⟨hx, _⟩ := worldTransform_eq_ok.1 hplace
    obtain ⟨q, t, hq, _, hd, _, rfl⟩ := worldBounds_eq_ok.1 hbox
    obtain ⟨between, line, rest, hbetween, hchain, rfl⟩ := hx.exists_carried hd hway
    have hsettled := hbetween.settled hx.not_below
    -- the first of the line is the entity whose box it is
    obtain ⟨own, line', hown, _, rfl⟩ := List.forall₂_cons_left_iff.1 hbetween.seen
    rw [hq] at hown
    cases hown
    exact ⟨between, q, line', rest, hchain, hsettled, rfl⟩

end View

/-- The hook of a crane. -/
def hook : Entity Float :=
  { Entity.new 3 .model (.splat 1) with position := ⟨3, 0, 0⟩, parent := some 2 }

/-- A crane on a track, with an arm that the hook is on. -/
def crane : View Float where
  scene := { entities := .ofList [
    (1, { Entity.new 1 .model (.splat 1) with position := ⟨1, 0, 0⟩, children := [2] }),
    (2, { Entity.new 2 .model (.splat 1) with
      position := ⟨0, 0, 4⟩, parent := some 1, children := [3] }),
    (3, hook)] }
  working := { epsilon := 0 }
  useSurrogates := false

/-- The crane drives along its track. -/
def driving : Command Float := .single { id := 1 } (.move 1 ⟨1, 0, 0⟩ ⟨5, 0, 0⟩)

/-- The crane, driven along its track. -/
def driven : Surrogate Float :=
  { Surrogate.ofEntity (Entity.new 1 .model (.splat 1)) with position := ⟨5, 0, 0⟩ }

/-- The hook hangs from the arm, and drives with the crane. -/
theorem View.worldTransform_composes_crane :
    (crane.worldTransform 3 = .ok (.translation ⟨4, 0, 4⟩) ∧
      crane.worldTransform 2 = .ok (.translation ⟨1, 0, 4⟩) ∧
      .translation ⟨4, 0, 4⟩ = (Transform.translation ⟨1, 0, 4⟩).comp
        (Surrogate.ofEntity hook).localTransform ∧
      ∃ chain, crane.ancestors 2 = .ok chain ∧ crane.ancestors 3 = .ok (2 :: chain)) ∧
    crane.speculate driving = .ok (some driven) ∧
      Relation.TransGen (crane.trying driven).ParentLink 3 1 ∧
    (crane.trying driven).worldTransform 1 = .ok (.translation ⟨5, 0, 0⟩) ∧
    ∃ box between own line rest, (crane.trying driven).worldBounds 3 false = .ok (some box) ∧
      (crane.trying driven).ancestors 3 = .ok (between ++ 1 :: rest) ∧
      List.Forall₂ (fun y q => crane.settled y = .ok q) (3 :: between) (own :: line) ∧
      box = (own.bounds false).transform (carried (.translation ⟨5, 0, 0⟩) (own :: line)) := by
  -- the placements of the fixed scene, by evaluation
  have hhook : crane.worldTransform 3 = .ok (.translation ⟨4, 0, 4⟩) := by decide +kernel
  have harm : crane.worldTransform 2 = .ok (.translation ⟨1, 0, 4⟩) := by decide +kernel
  have hdriven : crane.speculate driving = .ok (some driven) := rfl
  have hway : Relation.TransGen (crane.trying driven).ParentLink 3 1 :=
    .head ⟨.ofEntity hook, rfl, rfl⟩ (.single ⟨_, rfl, rfl⟩)
  have hcrane : (crane.trying driven).worldTransform 1 = .ok (.translation ⟨5, 0, 0⟩) := by
    decide +kernel
  have hafter : (crane.trying driven).worldTransform 3 = .ok (.translation ⟨8, 0, 4⟩) := by
    decide +kernel
  obtain ⟨hplaced, hfinite⟩ := worldTransform_eq_ok.1 hafter
  have hbox : (crane.trying driven).worldBounds 3 false =
      .ok (some (((Surrogate.ofEntity hook).bounds false).transform (.translation ⟨8, 0, 4⟩))) :=
    worldBounds_eq_ok.2 ⟨.ofEntity hook, _, rfl, rfl, hplaced, hfinite, rfl⟩
  -- what they have to do with each other, by the theorem
  obtain ⟨hcomposes, hcarries⟩ := worldTransform_composes crane
  obtain ⟨between, own, line, rest, hchain, hline, hplace⟩ := hcarries hdriven hway hcrane hbox
  refine ⟨⟨hhook, harm, hcomposes (s := .ofEntity hook) rfl rfl hhook harm⟩, hdriven,
    hway, hcrane, ?_⟩
  exact ⟨_, between, own, line, rest, hbox, hchain, hline, hplace⟩

end SceneGuard
