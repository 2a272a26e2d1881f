import SceneGuard.Proofs.Pass.Execution
import SceneGuard.Proofs.Pass.Record
import SceneGuard.Proofs.Speculation.Cycles

/-!
# Who is told of a cycle

A scene refuses to hang an entity below itself, and finds out by walking up from the new parent
before anything is changed. A pass finds out by walking down from the entity in a view where the new
parent is in place already. Over a forest they agree about every entity but zones, whose collisions
nobody asks for (`cyclicHierarchy_iff_cycle`).
-/

namespace SceneGuard

open Relation

variable {α μ : Type}

/-- An entity that is there goes under one that is there, or would become its own ancestor. -/
theorem Scene.reparent_or_cycle {s : Scene α} {id : EntityId} {e : Entity α}
    (he : s.get? id = some e) {target : Attachment α}
    (hparent : ∀ p, target.parent = some p → ∃ q, s.get? p = some q) :
    (∃ t, s.reparent id target = .ok t) ∨ ∃ p, target.parent = some p ∧ s.isAncestor id p = true ∧
      s.reparent id target = .error (.cycle id p) := by
  by_cases hcycle : ∃ p, target.parent = some p ∧ s.isAncestor id p = true
  · obtain ⟨p, hp, hcycle⟩ := hcycle
    obtain ⟨q, hq⟩ := hparent p hp
    refine .inr ⟨p, hp, hcycle, ?_⟩
    unfold Scene.reparent
    simp [hp, Scene.require, hq, hcycle, bind, Except.bind, throw, throwThe, MonadExceptOf.throw]
  · have hadmits : s.Admits id target.parent := fun p hp =>
      ⟨hparent p hp, Bool.eq_false_iff.2 fun h => hcycle ⟨p, hp, h⟩⟩
    exact .inl ⟨_, reparent_of_admits hadmits he⟩

/-!
## The query about a reparenting

In the view of the query the new parent is in place already. If that hangs below the entity, the
walk down comes back to where it started; if not, everything still has a line to a root.
-/

namespace WorkingSet

variable [Scalar α] {w : WorkingSet α} {scene : Scene α}

/-- Where there are no surrogates, a query sees the scene, whether it would use them or not. -/
theorem settled_viewFor (hbare : ∀ x, w.get? x = none) (options : CollisionOptions α)
    (x : EntityId) : (w.viewFor scene options).settled x = orMissing (scene.surrogate? x) x := by
  have hlive : (w.viewFor scene options).scene.get? x = scene.get? x := rfl
  have hnone : (w.viewFor scene options).working.get? x = none := hbare x
  unfold View.settled orMissing Scene.surrogate?
  rw [hnone, hlive]
  cases (w.viewFor scene options).useSurrogates <;> cases scene.get? x <;> rfl

/-- The surrogate of an entity after it was hung under another parent. -/
def hung (e : Entity α) (target : Attachment α) : Surrogate α :=
  { Surrogate.ofEntity e with parent := target.parent, position := target.position }

variable {id : EntityId} {e : Entity α} {after : Attachment α}

/-- The surrogate for a reparenting is that of its entity, hung elsewhere. -/
theorem speculate_reparent (hbare : ∀ x, w.get? x = none) (options : CollisionOptions α)
    (hkeyed : scene.Keyed) (he : scene.get? id = some e) (header : Header)
    (before after : Attachment α) :
    (w.viewFor scene options).speculate (.single header (.reparent id before after)) =
      .ok (some (hung e after)) := by
  have hsettled : (w.viewFor scene options).settled id = .ok (.ofEntity e) := by
    rw [settled_viewFor hbare, orMissing_eq_ok, Scene.surrogate?, he]
    rfl
  have hid : (Surrogate.ofEntity e).id = id := hkeyed id e he
  show ((w.viewFor scene options).settled id >>= fun s => _) = _
  rw [hsettled]
  simp only [bind, Except.bind, pure, Except.pure, Surrogate.apply, Edit.entityId, hid, if_true]
  rfl

/-- The view of a query about a reparenting: the entity hangs where it is to hang,
and else there is the scene. -/
theorem state_hung (hbare : ∀ x, w.get? x = none) (scene : Scene α) (options : CollisionOptions α)
    (hid : e.id = id) (after : Attachment α) (x : EntityId) :
    ((w.viewFor scene options).trying (hung e after)).state x =
      if x = id then .ok (hung e after) else orMissing (scene.surrogate? x) x := by
  rw [← settled_viewFor hbare options, ← hid]
  show (if e.id = x then _ else _) = _
  simp only [eq_comm (a := x)]
  rfl

/-- The query about a reparenting asks for the neighbours of the entity where it is to hang. -/
theorem collide_reparent (hbare : ∀ x, w.get? x = none) (options : CollisionOptions α)
    (hkeyed : scene.Keyed) (he : scene.get? id = some e) (withDescendants : Bool) (header : Header)
    (before after : Attachment α) :
    w.collide scene (.single header (.reparent id before after)) options withDescendants =
      if e.kind = .zone then .ok none
      else ((w.viewFor scene options).trying (hung e after)).neighbours id options
          withDescendants := by
  have hid : (hung e after).id = id := hkeyed id e he
  have hremove : (Command.single header (.reparent id before after)).kind.isRemove = false := rfl
  have hmade := speculate_reparent hbare options hkeyed he header before after
  by_cases hkind : e.kind = .zone
  · have hzone : (hung e after).kind = .zone := hkind
    rw [if_pos hkind, collide_viewFor, hremove, hmade]
    simp only [Bool.false_eq_true, if_false, Except.bind, hzone, decide_true, Bool.true_or, if_true]
  · rw [if_neg hkind, collide_of_speculate hremove hmade hkind rfl, hid]

/-- Under something below it, the entity is its own descendant. -/
theorem neighbours_of_cycle (hbare : ∀ x, w.get? x = none) (options : CollisionOptions α)
    (hid : e.id = id) (he : scene.get? id = some e) {p : EntityId} (hp : after.parent = some p)
    (hcycle : scene.isAncestor id p = true) (withDescendants : Bool) :
    ((w.viewFor scene options).trying (hung e after)).neighbours id options withDescendants =
      .error (.cyclicHierarchy id) := by
  have hstate := state_hung hbare scene options hid after
  generalize hv : (w.viewFor scene options).trying (hung e after) = v at hstate ⊢
  have hlive : ∀ {x q}, scene.get? x = some q → v.Knows x := fun hq => by
    subst hv
    exact .inl ⟨_, hq⟩
  -- up to the entity, the way from the new parent is the one in the scene
  have hway : ReflTransGen v.KnownLink p id := by
    have hway := Scene.isAncestor_iff.1 hcycle
    clear hp hcycle
    induction hway using ReflTransGen.head_induction_on with
    | refl => exact .refl
    | @head a b hab _ ih =>
      by_cases ha : a = id
      · exact ha ▸ .refl
      · obtain ⟨q, hq, hb⟩ := Scene.skeleton_link.1 hab
        refine .head ⟨hlive hq, .ofEntity q, ?_, hb⟩ ih
        rw [hstate, if_neg ha, orMissing_eq_ok, Scene.surrogate?, hq]
        rfl
  have hlink : v.KnownLink id p := ⟨hlive he, hung e after, by rw [hstate, if_pos rfl], hp⟩
  unfold View.neighbours
  rw [View.descendants_of_cycle (TransGen.head' hlink hway)]
  rfl

/-- Where the scene accepts the reparenting, the query comes to no cycle. -/
theorem neighbours_of_reparent (hbare : ∀ x, w.get? x = none) (options : CollisionOptions α)
    (hid : e.id = id) (he : scene.get? id = some e) (hlinks : scene.LinkConsistent)
    (hacyclic : scene.Acyclic) {t : Scene α} (ht : scene.reparent id after = .ok t)
    (withDescendants : Bool) :
    Straight (((w.viewFor scene options).trying (hung e after)).neighbours id options
      withDescendants) := by
  have hedit : scene.edit (.reparent id after after) = .ok t := ht
  obtain ⟨q, hq, hnext⟩ := Scene.surrogate?_edit rfl hedit
  have hq : scene.surrogate? id = some q := hq
  rw [Scene.surrogate?, he] at hq
  cases hq
  refine (View.grounded_of_scene (t := t) (fun x => ?_) (hlinks.edit hacyclic ?_ hedit)
    (hacyclic.edit hlinks hedit)).neighbours id options withDescendants
  · rw [state_hung hbare scene options hid, hnext]
    show _ = orMissing (if x = id then _ else _) x
    split <;> rfl
  · exact Edit.addsLeaf_of_kind rfl

end WorkingSet

/-!
## The pass

Of the rules for a reparenting only the collision rule can be at fault. So the turn complains of a
cycle when the query does.
-/

/-- A single rule on a checklist is at fault when the checklist is. -/
theorem Checklist.verdict_run_singleton (scene : Scene α) (config : Config α) (r : Rule α μ)
    (t : Trial α μ) (v : Verdict α) :
    ∃ answer : Verdict α → Verdict α, (Checklist.run scene config [r] t v).2 =
      (r.process ⟨scene, t.changes.working, config⟩ t.ids t.memory t.command v).verdict.map
        answer := by
  refine ⟨fun v' => { v' with severity := v'.severity.raise v.severity }, ?_⟩
  unfold Checklist.run
  generalize r.process ⟨scene, t.changes.working, config⟩ t.ids t.memory t.command v = a
  obtain ⟨command, verdict, staged, issued, ids, memory⟩ := a
  cases verdict <;> rfl

/-- The surrogate of a command is looked up, and nobody walks for it. -/
theorem View.straight_speculate [Scalar α] (v : View α) (c : Command α) :
    Straight (v.speculate c) := by
  cases c with
  | composite => exact straight_ok none
  | single header e =>
    cases e with
    | add => exact straight_ok _
    | _ => exact (v.straight_settled _).bind fun _ _ => straight_ok _

/-- The collision rule makes its verdict of the answer of the query,
and is at fault when that is. -/
theorem Rule.verdict_collision [Scalar α] (ctx : RuleContext α) (ids : IdSource) (memory : μ)
    (c : Command α) (r : Verdict α) (action : FailureAction) (rejectTransient : Bool) :
    ∃ answer : Option (List EntityId) → Verdict α,
      ((Rule.collision action rejectTransient).process ctx ids memory c r).verdict =
        (ctx.working.collide ctx.scene c ctx.config.collision.options true).map answer := by
  refine ⟨fun found => found.elim r fun hits =>
    if c.header.transient && !rejectTransient
      then r.escalate .error (.overlap (c.entityId.getD 0) hits)
    else r.reject action (.overlap (c.entityId.getD 0) hits), ?_⟩
  show (ctx.working.collide ctx.scene c ctx.config.collision.options true >>= fun found => _) = _
  rcases ctx.working.collide ctx.scene c ctx.config.collision.options true with f | _ | hits
  · rfl
  · rfl
  · show (if (c.header.transient && !rejectTransient) = true then _ else _) = _
    unfold Except.map
    dsimp only
    split <;> rfl

namespace Validator

variable [Scalar α] [NumberText α] {v : Validator α μ} {scene : Scene α} {header : Header}
  {id : EntityId} {e : Entity α} {after : Attachment α}

/-- Of the rules for a reparenting that is not superseded,
the collision rule alone can be at fault. -/
theorem judge_reparent (hv : v.Standard) (scene : Scene α) (p : Pass α μ)
    (hforced : header.forced = false) (hdying : header.dying = false) (id : EntityId)
    (before after : Attachment α) :
    ∃ answer : Option (List EntityId) → Verdict α,
      (v.judge scene (trial p (.single header (.reparent id before after)))).2 =
        (p.session.working.collide scene (.single header (.reparent id before after))
          v.config.collision.options true).map answer := by
  rw [judge_standard hv scene rfl hforced]
  generalize hc : Command.single header (Edit.reparent id before after) = c
  -- two rules hear a reparent: one that has nothing to say here, and the collision check
  have hlist :
      (Rule.standard v.config.rules (Edit.reparent id before after).kind : List (Rule α μ)) =
      [.dieCheck,
        .collision v.config.rules.collisionFailureAction v.config.rules.rejectTransient] := rfl
  have hidle : (Rule.dieCheck : Rule α μ).process ⟨scene, (trial p c).changes.working, v.config⟩
      (trial p c).ids (trial p c).memory (trial p c).command .approval =
      { command := c, verdict := .ok .approval, ids := (trial p c).ids,
        memory := (trial p c).memory } := by
    subst hc
    simp [Rule.dieCheck, Rule.judging, trial, Command.header, hdying]
  obtain ⟨note, hnote⟩ := Rule.verdict_collision ⟨scene, (trial p c).changes.working, v.config⟩
    (trial p c).ids
    (trial p c).memory (trial p c).command .approval v.config.rules.collisionFailureAction
    v.config.rules.rejectTransient
  obtain ⟨answer, hanswer⟩ := Checklist.verdict_run_singleton scene v.config (.collision
    v.config.rules.collisionFailureAction v.config.rules.rejectTransient) (trial p c) .approval
  refine ⟨fun found => answer (note found), ?_⟩
  rw [hlist, Checklist.run_idle hidle, hanswer, hnote]
  show Except.map answer
    (Except.map note (p.session.working.collide scene c v.config.collision.options true)) = _
  cases p.session.working.collide scene c v.config.collision.options true <;> rfl

omit [NumberText α] in
/-- What a turn comes to is a complaint about a cycle only if that is what its rules said. -/
theorem straight_turn {p : Pass α μ} {c : Command α} (h : Straight (v.judge scene (trial p c)).2) :
    Straight (v.turn scene p c).verdict := by
  show Straight (conclude scene (v.tried scene p c) (v.judge scene (trial p c)).2).2
  unfold conclude
  cases hjudge : (v.judge scene (trial p c)).2 with
  | error f => exact (hjudge ▸ h).error
  | ok r =>
    dsimp only
    split
    · -- an approval is followed by the effect on the entity, which walks up once more
      let seen := (v.tried scene p c).changes.working.view scene
      have hmade := seen.straight_speculate (v.tried scene p c).command
      unfold WorkingSet.surrogateFor
      cases hspeculate : seen.speculate (v.tried scene p c).command with
      | error f => exact (hspeculate ▸ hmade).error
      | ok made => cases made <;> exact straight_ok r
    · exact straight_ok r

/-- The turn of a reparenting is at fault for a cycle where the scene would refuse it for one. -/
theorem verdict_turn_reparent (hv : v.Standard) (hlinks : scene.LinkConsistent)
    (hacyclic : scene.Acyclic) (he : scene.get? id = some e)
    (hparent : ∀ p, after.parent = some p → ∃ q, scene.get? p = some q) {p : Pass α μ}
    (hbare : ∀ x, p.session.working.get? x = none) (hforced : header.forced = false)
    (hdying : header.dying = false) (before : Attachment α) :
    (∃ x, (v.turn scene p (.single header (.reparent id before after))).verdict =
      .error (.cyclicHierarchy x)) ↔
      e.kind ≠ .zone ∧ ∃ x y, scene.reparent id after = .error (.cycle x y) := by
  have hid := hlinks.keyed id e he
  obtain ⟨answer, hjudge⟩ := judge_reparent hv scene p hforced hdying id before after
  have hcollide := WorkingSet.collide_reparent hbare v.config.collision.options hlinks.keyed he
    true header before
    after
  constructor
  · rintro ⟨x, hx⟩
    -- with a straight answer of the query the whole turn would be straight
    have hquery :
        ¬Straight (p.session.working.collide scene (.single header (.reparent id before after))
        v.config.collision.options true) := fun hquery => by
      refine straight_turn ?_ x hx
      rw [hjudge]
      revert hquery
      cases p.session.working.collide scene (.single header (.reparent id before after))
          v.config.collision.options true with
      | ok found => exact fun _ => straight_ok _
      | error f => exact Straight.error
    rw [hcollide] at hquery
    by_cases hkind : e.kind = .zone
    · rw [if_pos hkind] at hquery
      exact absurd (straight_ok none) hquery
    · rw [if_neg hkind] at hquery
      refine ⟨hkind, ?_⟩
      obtain ⟨t, ht⟩ | ⟨y, -, -, hrefused⟩ := Scene.reparent_or_cycle he hparent
      · exact absurd (WorkingSet.neighbours_of_reparent hbare _ hid he hlinks hacyclic ht true)
          hquery
      · exact ⟨id, y, hrefused⟩
  · rintro ⟨hkind, x, y, hrefused⟩
    obtain ⟨t, ht⟩ | ⟨q, hq, hcycle, -⟩ := Scene.reparent_or_cycle he hparent
    · rw [ht] at hrefused
      cases hrefused
    · rw [hcollide, if_neg hkind,
        WorkingSet.neighbours_of_cycle hbare _ hid he hq hcycle true] at hjudge
      refine ⟨id, ?_⟩
      show (conclude scene (v.tried scene p _) (v.judge scene (trial p _)).2).2 = _
      rw [hjudge]
      rfl

/--
**Who is told of a cycle.** A reparenting of an entity of a forest under another one, or to the top,
is validated in one turn. The pass records a cycle exactly where the scene refuses the command for
one, unless the entity is a zone.
-/
theorem cyclicHierarchy_iff_cycle (hv : v.Standard) (hlinks : scene.LinkConsistent)
    (hacyclic : scene.Acyclic) (he : scene.get? id = some e) (header : Header)
    (hforced : header.forced = false) (hdying : header.dying = false) (before after : Attachment α)
    (hparent : ∀ p, after.parent = some p → ∃ q, scene.get? p = some q) (session : Session α)
    (ids : IdSource) (memory : μ) {budget : Nat} (hbudget : 0 < budget) :
    ∃ result, v.validate budget scene session ids memory
      (.single header (.reparent id before after)) =
        some result ∧
      ((∃ x, result.outcome.fault = some (.cyclicHierarchy x)) ↔ e.kind ≠ .zone ∧
        ∃ x y, (scene.apply (.single header (.reparent id before after))).2 =
          .error (.cycle x y)) := by
  have hrefused :
      (∃ x y, (scene.apply (.single header (.reparent id before after))).2 = .error (.cycle x y)) ↔
      ∃ x y, scene.reparent id after = .error (.cycle x y) :=
    exists_congr fun _ => exists_congr fun _ => Scene.apply_single_eq_error
  have hturn := verdict_turn_reparent hv hlinks hacyclic he hparent
    (p := v.start session ids memory (.single header (.reparent id before after))) (fun _ => rfl)
      hforced hdying
    before
  generalize hc : Command.single header (Edit.reparent id before after) = c at hturn hrefused ⊢
  generalize hp : v.start session ids memory c = p at hturn
  have hkind : c.kind.isRemove = false := hc ▸ rfl
  have hqueues : p.session.queues = { pending := [c] } := by
    rw [← hp, queues_start, ← hc]
    rfl
  have hstep : v.step? scene c p = some ((v.judged scene p c []).settle c (v.turn scene p c)) :=
    step?_eq_some.2 ⟨c, [], by rw [hqueues], rfl⟩
  -- the turn leaves nothing to be done
  have hdone :
      ((v.judged scene p c []).settle c (v.turn scene p c)).session.queues.pending = [] := by
    refine List.eq_nil_iff_forall_not_mem.2 fun d hd => ?_
    have hissued : (v.judged scene p c []).session.queues.issued = [] := by
      show p.session.queues.issued ++ (v.tried scene p c).issued = []
      rw [hqueues, show (v.tried scene p c).issued = []
        from (judge_quiet hv.builtin scene hkind).2.2]
      rfl
    rcases Pass.mem_pending_settle hd with hd | hd
    · cases hd
    · rw [hissued] at hd
      cases hd
  have hfault : ((v.judged scene p c []).settle c (v.turn scene p c)).fault =
      (v.turn scene p c).fault? := by
    rw [Pass.fault_settle]
    subst hp
    rfl
  obtain ⟨budget, rfl⟩ := Nat.exists_eq_add_one_of_ne_zero (Nat.pos_iff_ne_zero.1 hbudget)
  have hchecks : v.checks c = true := by
    unfold checks
    rw [hv.checking, ← hc]
    simp [Command.header, hforced]
  obtain ⟨result, hresult, hrecorded⟩ : ∃ result,
      v.validate (budget + 1) scene session ids memory c = some result ∧
        result.outcome.fault = (v.turn scene p c).fault? := by
    unfold validate
    rw [hchecks, hp, run_of_step? budget hstep, run_of_pending hdone]
    exact ⟨_, rfl, hfault⟩
  refine ⟨result, hresult, ?_⟩
  rw [hrefused, ← hturn, hrecorded]
  unfold Dispatch.fault?
  cases (v.turn scene p c).verdict <;> simp

/-- The shelf is put under the lid on the box on it, and then the lid under the shelf. -/
theorem cyclicHierarchy_iff_cycle_shelf : ∃ below above : Validation Float Unit,
    (plain false).validate 1 shelf .fresh {} ()
      (.single { id := 1 } (.reparent 1 ⟨none, .splat 0⟩ ⟨some 3, .splat 0⟩)) = some below ∧
    (∃ x, below.outcome.fault = some (.cyclicHierarchy x)) ∧
    (plain true).validate 1 shelf .fresh {} ()
      (.single { id := 1 } (.reparent 3 ⟨some 2, .splat 0⟩ ⟨some 1, .splat 0⟩)) = some above ∧
    ¬∃ x, above.outcome.fault = some (.cyclicHierarchy x) := by
  have hlinks : shelf.LinkConsistent := by decide
  have hacyclic : shelf.Acyclic :=
    Scene.acyclic_of_rank (show shelf.falls UInt64.toNat = true by decide)
  have hthere : ∀ p, p = 1 ∨ p = 3 → ∃ q, shelf.get? p = some q := by
    rintro p (rfl | rfl) <;> exact ⟨_, rfl⟩
  have hshelf : shelf.get? 1 = some _ := rfl
  have hlid : shelf.get? 3 = some _ := rfl
  -- 1 goes under 3, which is below it: refused
  obtain ⟨below, hbelow, hcycle⟩ := cyclicHierarchy_iff_cycle (standard_plain false) hlinks
    hacyclic hshelf
    { id := 1 } rfl rfl ⟨none, .splat 0⟩ ⟨some 3, .splat 0⟩
    (fun p hp => hthere p (.inr (Option.some.inj hp).symm)) .fresh {} () Nat.one_pos
  -- 3 goes up to 1: no cycle, and no refusal
  obtain ⟨above, habove, hfree⟩ :=
    cyclicHierarchy_iff_cycle (standard_plain true) hlinks hacyclic hlid
    { id := 1 } rfl rfl ⟨some 2, .splat 0⟩ ⟨some 1, .splat 0⟩
    (fun p hp => hthere p (.inl (Option.some.inj hp).symm)) .fresh {} () Nat.one_pos
  refine ⟨below, above, hbelow, hcycle.2 ⟨by decide, 1, 3, by decide⟩, habove, fun h => ?_⟩
  obtain ⟨-, x, y, hrefused⟩ := hfree.1 h
  have haccepted :
      (shelf.apply (.single { id := 1 } (.reparent 3 ⟨some 2, .splat 0⟩ ⟨some 1, .splat 0⟩))).2 =
      .ok () := by decide
  rw [haccepted] at hrefused
  cases hrefused

/-- A yard with a cart in it. -/
def yard : Scene Float :=
  sceneOf [{ Entity.new 1 .zone (.splat 9) with children := [2] },
    { Entity.new 2 .model (.splat 1) with parent := some 1 }]

/-- The yard is put on the cart that stands in it, and the pass sees nothing wrong with that. -/
theorem not_cyclicHierarchy_iff_cycle : ∃ result : Validation Float Unit, (plain true).Standard ∧
    yard.LinkConsistent ∧ yard.Acyclic ∧ (∃ e, yard.get? 1 = some e) ∧ (∃ q, yard.get? 2 = some q) ∧
    (plain true).validate 64 yard .fresh {} ()
      (.single { id := 1 } (.reparent 1 ⟨none, .splat 0⟩ ⟨some 2, .splat 0⟩)) = some result ∧
    result.outcome.approved = true ∧ result.outcome.fault = none ∧
    (yard.apply (.single { id := 1 } (.reparent 1 ⟨none, .splat 0⟩ ⟨some 2, .splat 0⟩))).2 =
      .error (.cycle 1 2) := by
  have hrun : ((plain true).validate 64 yard .fresh {} ()
      (.single { id := 1 } (.reparent 1 ⟨none, .splat 0⟩ ⟨some 2, .splat 0⟩))).any (fun r =>
        r.outcome.approved && r.outcome.fault.isNone) = true := by decide +kernel
  obtain ⟨result, h, hrun⟩ := (Option.any_eq_true _ _).1 hrun
  obtain ⟨happroved, hfault⟩ := Bool.and_eq_true_iff.1 hrun
  have hacyclic : yard.Acyclic :=
    Scene.acyclic_of_rank (show yard.falls UInt64.toNat = true by decide)
  exact ⟨result, standard_plain true, by decide, hacyclic, ⟨_, rfl⟩, ⟨_, rfl⟩, h, happroved,
    Option.isNone_iff_eq_none.1 hfault, by decide⟩

end Validator

end SceneGuard
