import SceneGuard.Proofs.Pass.Record
import SceneGuard.Proofs.Rule.Builtin
import SceneGuard.Proofs.Scene.Commands
import SceneGuard.Proofs.Speculation.Application

/-!
# What the approved queue and the working set say

Two records are kept through a pass, the approved queue and the working set. Main statements:

* `inLine_of_reaches` — the approved queue holds what was approved so far, in order, and in between
  the reset block if a rejection had one put in line; this is so whatever the rules do;
* `shows_approvals` — under the rules of the library and without removals, the working set laid over
  the scene shows what the approved commands make of it, the reset block left out.

Both speak of passes with something pending: once everything is cleared nothing is checked any more.
-/

namespace SceneGuard

variable {α μ : Type}

/-! ## The approved queue -/

namespace Pass

variable {p : Pass α μ} {edit : Command α}

/-- An approving turn adds what it left to the approvals. -/
theorem approvals_settle_approved (p : Pass α μ) (edit : Command α) {d : Dispatch α} {r : Verdict α}
    (hd : d.verdict = .ok r) (hr : r.approved = true) :
    (p.settle edit d).approvals = p.approvals ++ [d.left] := by
  rw [approvals_settle, Dispatch.approval?_of_action? (Dispatch.action?_of_approved hd hr)]
  rfl

/-- The reset block that is in line. -/
def blockInLine (edit : Command α) (ids : IdSource) (p : Pass α μ) : List (Command α) :=
  if p.resetIssued then (edit.resetBlock ids).1 else []

/-- The approved queue is what was approved so far,
with the reset block that is in line in between. -/
def InLine (edit : Command α) (p : Pass α μ) : Prop :=
  ∃ ids A B, p.session.queues.approved = A ++ p.blockInLine edit ids ++ B ∧ p.approvals = A ++ B

/-- On a pass that goes on, the block is where its record puts it. -/
theorem Going.inLine (h : p.Going edit) : p.InLine edit := by
  unfold InLine blockInLine
  cases h with
  | kept _ hissued happroved =>
    refine ⟨p.ids, p.approvals, [], ?_, (List.append_nil _).symm⟩
    simp [hissued, happroved]
  | restored before d after ids hhistory hd _ hissued happroved =>
    refine ⟨ids, _, _, by rw [hissued]; exact happroved, ?_⟩
    rw [approvals, hhistory, List.filterMap_append,
      List.filterMap_cons_none (Dispatch.approval?_of_resets hd)]

end Pass

namespace Validator

variable [Scalar α] {v : Validator α μ} {scene : Scene α} {edit : Command α} {p p' : Pass α μ}

/-- Whatever the rules do, the approved queue is in line as long as there is something to check. -/
theorem inLine_of_reaches {session : Session α} {ids : IdSource} {memory : μ}
    (h : v.Reaches scene edit (v.start session ids memory edit) p)
    (hpending : p.session.queues.pending ≠ []) : p.InLine edit := by
  rcases recorded_of_reaches h with ⟨hgoing, _⟩ | hcleared
  · exact hgoing.inLine
  · exact absurd hcleared.pending hpending

end Validator

/-!
## The working set

Rules of the library leave a command that removes nothing as it came, up to a position, and stage
nothing for it. So the working set grows by the effects of what the approvals grow by.
-/

/-- A single command that is no removal retains entities. -/
theorem Command.retains_of_mem_leaves {d c : Command α} (hc : c ∈ d.leaves)
    (hr : c.kind.isRemove = false) : c.retains = true := by
  obtain ⟨h, e, rfl⟩ := single_of_mem_leaves hc
  exact retains_iff.2 ⟨h, e, rfl, hr⟩

theorem Command.Resited.retains {c d : Command α} (h : c.Resited d) (hc : c.retains = true) :
    d.retains = true := by
  cases h <;> exact hc

namespace Pass

/-- What the working set has to do with the approvals,
while every pending command is an edit to be made. -/
structure InStep [Scalar α] (scene : Scene α) (p : Pass α μ) : Prop where
  pocket : p.session.working.pocket = .empty
  issued : p.session.queues.issued = []
  retains : ∀ c ∈ p.session.queues.pending, c.retains = true
  /-- As far as a scene accepts the approvals, the working set shows what they make of it. -/
  shows : ∀ t, scene.applyAll p.approvals = (t, .ok ()) → p.session.working.Shows scene t ∧ t.Keyed

end Pass

namespace Validator

variable [Scalar α] {v : Validator α μ} {scene : Scene α} {edit : Command α} {p p' : Pass α μ}

/-- A pass starts in step with the scene: nothing is approved, and nothing is in the working set. -/
theorem inStep_start {session : Session α} {ids : IdSource} {memory : μ} (hkeyed : scene.Keyed)
    (hedit : ∀ c ∈ edit.leaves, c.kind.isRemove = false) :
    (v.start session ids memory edit).InStep scene where
  pocket := WorkingSet.pocket_restoreAll session.working
  issued := by rw [queues_start]
  retains := by
    rw [queues_start]
    exact fun c hc => Command.retains_of_mem_leaves hc (hedit c hc)
  shows t ht := by
    obtain rfl : scene = t := (Prod.ext_iff.1 ht).1
    exact ⟨fun id => rfl, hkeyed⟩

variable [NumberText α]

/-- What the rules of the library leave of a command that is an edit to be made. -/
theorem tried_quiet (hv : v.Builtin) (scene : Scene α) (p : Pass α μ) {c : Command α}
    (hc : c.retains = true) :
    (v.tried scene p c).command.retains = true ∧
      (v.tried scene p c).changes = { working := p.session.working } ∧
      (v.tried scene p c).issued = [] := by
  have hremove : c.kind.isRemove = false := by
    obtain ⟨h, e, rfl, hr⟩ := Command.retains_iff.1 hc
    exact hr
  obtain ⟨hresited, hchanges, hissued⟩ := judge_quiet hv scene (t := trial p c) hremove
  exact ⟨hresited.retains hc, hchanges, hissued⟩

/-- A rejection that does not clear all leaves the working set, and the approvals with it. -/
theorem inStep_reject (hv : v.Builtin) (hp : p.InStep scene) {c : Command α}
    {rest : List (Command α)} (hpending : p.session.queues.pending = c :: rest) {a : FailureAction}
    (haction : (v.turn scene p c).action? = some a) (ha : a ≠ .clearAll) :
    ((v.judged scene p c rest).settle edit (v.turn scene p c)).InStep scene := by
  obtain ⟨_, _, hissued⟩ := tried_quiet hv scene p (hp.retains c (by rw [hpending]; simp))
  -- a rejected turn drops what it staged
  have hworking : ((v.judged scene p c rest).settle edit (v.turn scene p c)).session.working =
      p.session.working := by
    rw [Pass.working_settle _ edit haction ha]
    exact working_of_action? hp.pocket haction
  refine ⟨by rw [hworking, hp.pocket], Pass.issued_settle .., fun d hd => ?_, fun t ht => ?_⟩
  · rcases mem_pending_step? hp.issued hd with hd | hd
    · exact hp.retains d (by rw [hpending]; exact List.mem_cons_of_mem _ hd)
    · rw [hissued] at hd
      cases hd
  · rw [Pass.approvals_settle, Dispatch.approval?_eq_none haction, Option.toList_none,
      List.append_nil] at ht
    rw [hworking]
    exact hp.shows t ht

/-- An approved command goes behind the approvals, and its effect into the working set. -/
theorem inStep_approve (hv : v.Builtin) (hp : p.InStep scene) {c : Command α}
    {rest : List (Command α)} (hpending : p.session.queues.pending = c :: rest) {r : Verdict α}
    (hr : (v.turn scene p c).verdict = .ok r) (happroved : r.approved = true) :
    ((v.judged scene p c rest).settle edit (v.turn scene p c)).InStep scene := by
  obtain ⟨hleft, hchanges, hissued⟩ := tried_quiet hv scene p
    (hp.retains c (by rw [hpending]; simp))
  obtain ⟨_, made, hmade, hsession⟩ := approving_turn edit rest hr happroved
  rw [hchanges] at hmade hsession
  rw [hp.issued, hissued, List.append_nil, List.append_nil] at hsession
  have happrovals := Pass.approvals_settle_approved (v.judged scene p c rest) edit hr happroved
  refine ⟨?pocket, by rw [hsession], ?retains, fun t ht => ?shows⟩
  case pocket =>
    rw [hsession]
    exact ((Transaction.since_start hp.pocket).stageIfAny made).keep_pocket
  case retains =>
    rw [hsession]
    exact fun d hd => hp.retains d (by rw [hpending]; simp [hd])
  case shows =>
    rw [happrovals] at ht
    -- the scene goes through the earlier approvals to `m`,
    -- where the new one is speculated and applied
    obtain ⟨m, hm, hlast⟩ := Scene.applyAll_append_eq_ok.1 ht
    obtain ⟨hshows, hkeyed⟩ := hp.shows m hm
    obtain ⟨t', happly, hnil⟩ := Scene.applyAll_cons_eq_ok.1 hlast
    obtain rfl : t' = t := (Prod.ext_iff.1 hnil).1
    change m.apply (v.tried scene p c).command = _ at happly
    generalize (v.tried scene p c).command = d at hleft happly hmade
    obtain ⟨header, e, rfl, hremove⟩ := Command.retains_iff.1 hleft
    have hedit := Scene.apply_single_eq_ok.1 happly
    obtain ⟨made', hmade', hshows'⟩ := hshows.speculate hkeyed hremove hedit header
    rw [hmade] at hmade'
    cases hmade'
    refine ⟨fun id => ?_, hkeyed.edit hedit⟩
    rw [hsession]
    show WorkingSet.shown _ scene id = _
    rw [WorkingSet.shown_congr (Transaction.get?_keep_stageIfAny _ made)]
    exact hshows' id

/-- A turn keeps the working set in step, unless it clears everything. -/
theorem inStep_step? (hv : v.Builtin) (hp : p.InStep scene) (h : v.step? scene edit p = some p') :
    p'.session.queues.pending = [] ∨ p'.InStep scene := by
  obtain ⟨c, rest, hpending, rfl⟩ := step?_eq_some.1 h
  by_cases hclear : (v.turn scene p c).action? = some .clearAll
  · exact .inl (Pass.pending_settle_clearAll _ edit hclear)
  · right
    cases haction : (v.turn scene p c).action? with
    | none =>
      obtain ⟨r, hr, happroved⟩ := Dispatch.exists_approved haction
      exact inStep_approve hv hp hpending hr happroved
    | some a => exact inStep_reject hv hp hpending haction fun ha => hclear (ha ▸ haction)

/--
**The working set shows the approvals.** Under rules of the library, and with no removal in the
edit, the approved queue at every point where there is something to check holds the commands
approved so far and the reset block that is in line. As far as the scene accepts these commands,
every query made then sees the entities that they leave.
-/
theorem shows_approvals (hv : v.Builtin) (hscene : scene.LinkConsistent)
    (hedit : ∀ c ∈ edit.leaves, c.kind.isRemove = false) {session : Session α}
    {ids : IdSource} {memory : μ} (h : v.Reaches scene edit (v.start session ids memory edit) p)
    (hpending : p.session.queues.pending ≠ []) :
    ∃ ids A B, p.session.queues.approved = A ++ p.blockInLine edit ids ++ B ∧ p.approvals = A ++ B ∧
      ∀ t, scene.applyAll (A ++ B) = (t, .ok ()) → ∀ id,
        (p.session.working.view scene).settled id = WorkingSet.orMissing (t.surrogate? id) id := by
  obtain ⟨ids', A, B, hqueue, happrovals⟩ := inLine_of_reaches h hpending
  have hinv : p.session.queues.pending = [] ∨ p.InStep scene := by
    refine h.invariant (P := fun q => q.session.queues.pending = [] ∨ q.InStep scene)
      (Or.inr (inStep_start hscene.keyed hedit)) fun a b ha hstep => ?_
    obtain ⟨c, rest, hp, _⟩ := step?_eq_some.1 hstep
    exact inStep_step? hv (ha.resolve_left (by rw [hp]; simp)) hstep
  refine ⟨ids', A, B, hqueue, happrovals, fun t ht id => ?_⟩
  rw [← happrovals] at ht
  exact ((hinv.resolve_left hpending).shows t ht).1.settled id

/-- The pass over the rebuilding after its first two turns. -/
def afterRejection : Option (Pass Float Unit) :=
  (heightLimits.step? blocks tooHigh (heightLimits.start .fresh {} () tooHigh)).bind
    (heightLimits.step? blocks tooHigh)

/-- The limit of heights is a rule of the library. -/
theorem builtin_heightLimits : heightLimits.Builtin := by
  intro b hb r hr
  obtain rfl := List.mem_singleton.1 hb
  obtain rfl := List.mem_singleton.1 hr
  exact ⟨{ RuleParams.standard with propertyRanges := [⟨⟨"shape", "height"⟩, 1, 3⟩] },
    "property_range", rfl⟩

/-- A pass in which something was rejected and something waits. -/
theorem exists_afterRejection : ∃ p, heightLimits.Reaches blocks tooHigh
    (heightLimits.start .fresh {} () tooHigh) p ∧ afterRejection = some p ∧
    p.session.queues.pending ≠ [] := by
  have hpending : (afterRejection.map fun p => p.session.queues.pending.isEmpty) = some false := by
    decide +kernel
  obtain ⟨p, hp, hpending⟩ := Option.map_eq_some_iff.1 hpending
  obtain ⟨q, hq, hstep⟩ := Option.bind_eq_some_iff.1 hp
  refine ⟨p, .step (.step .refl hq) hstep, hp, fun h => ?_⟩
  rw [h] at hpending
  cases hpending

/-- After the rejection the working set shows the first block moved, and not the height. -/
theorem shows_approvals_tooHigh : ∃ p, heightLimits.Reaches blocks tooHigh
    (heightLimits.start .fresh {} () tooHigh) p ∧ p.session.queues.pending ≠ [] ∧
    ∃ ids A B, p.session.queues.approved = A ++ p.blockInLine tooHigh ids ++ B ∧
      p.approvals = A ++ B ∧
      ∀ t, blocks.applyAll (A ++ B) = (t, .ok ()) → ∀ id,
        (p.session.working.view blocks).settled id = WorkingSet.orMissing (t.surrogate? id) id := by
  obtain ⟨p, hreach, _, hpending⟩ := exists_afterRejection
  exact ⟨p, hreach, hpending,
    shows_approvals builtin_heightLimits (by decide) (by decide) hreach hpending⟩

/--
The reset block in the approved queue takes the first move back, and the working set keeps it: what
the last command is checked against is not what the approved queue makes of the scene.
-/
theorem not_shows_approved_queue : ∃ p t, heightLimits.Builtin ∧ blocks.LinkConsistent ∧
    (∀ c ∈ tooHigh.leaves, c.kind.isRemove = false) ∧
    heightLimits.Reaches blocks tooHigh (heightLimits.start .fresh {} () tooHigh) p ∧
    p.session.queues.pending ≠ [] ∧ blocks.applyAll p.session.queues.approved = (t, .ok ()) ∧
    (p.session.working.view blocks).settled 1 ≠ WorkingSet.orMissing (t.surrogate? 1) 1 := by
  obtain ⟨p, hreach, hp, hpending⟩ := exists_afterRejection
  have hok : (afterRejection.map fun p =>
      (blocks.applyAll p.session.queues.approved).2.toBool) = some true := by decide +kernel
  -- what the session shows of 1 after the rejection, and what the queue makes of it
  have hseen : (afterRejection.map fun p =>
      ((p.session.working.view blocks).settled 1).toOption.map fun s => s.position.z == 9) =
        some (some true) := by decide +kernel
  have hmade : (afterRejection.map fun p =>
      ((blocks.applyAll p.session.queues.approved).1.surrogate? 1).map fun s => s.position.z == 9) =
        some (some false) := by decide +kernel
  rw [hp, Option.map_some, Option.some.injEq] at hok hseen hmade
  rcases happly : blocks.applyAll p.session.queues.approved with ⟨t, result⟩
  rw [happly] at hok hmade
  cases result with
  | error x => cases hok
  | ok u =>
    refine ⟨p, t, builtin_heightLimits, by decide, by decide, hreach, hpending, happly, fun h => ?_⟩
    rw [h] at hseen
    change (t.surrogate? 1).map _ = _ at hmade
    cases hs : t.surrogate? 1 with
    | none => rw [hs] at hmade; cases hmade
    | some s =>
      rw [hs] at hseen hmade
      exact absurd (Option.some.inj hseen) (by rw [Option.some.inj hmade]; decide)

end Validator

end SceneGuard
