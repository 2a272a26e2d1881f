import SceneGuard.Proofs.Pass.Execution
import SceneGuard.Proofs.Pass.Record
import SceneGuard.Proofs.Scene.ResetBlock

/-!
# Superseded commands

A pass over an edit without the commands that are superseded in it (`Command.pruned`) shadows the
pass over the whole edit (`Pass.Shadows`): it takes the same turns, without those of the superseded
commands. Main statements:

* `rejected_of_dying` — a superseded command is never approved;
* `shadows_run` — the shadow goes on as long as no superseded command restores or issues anything;
* `Validator.superseded_ineffective` — what is executed is then what the pruned edit comes to.
-/

namespace SceneGuard

variable {α μ : Type}

/-! ## Shadows -/

/-- Superseded commands apart, the second pass stands where the first does. -/
structure Pass.Shadows (p q : Pass α μ) : Prop where
  working : q.session.working = p.session.working
  approved : q.session.queues.approved = p.session.queues.approved
  issued : q.session.queues.issued = p.session.queues.issued
  /-- Of what is in line, the superseded commands alone are missing. -/
  pending : q.session.queues.pending = p.session.queues.pending.filter fun c => !c.header.dying
  ids : q.ids = p.ids
  memory : q.memory = p.memory
  resetIssued : q.resetIssued = p.resetIssued
  /-- No rule issues what is superseded. -/
  alive : ∀ c ∈ p.session.queues.issued, c.header.dying = false

namespace Pass.Shadows

variable {p q : Pass α μ} {edit edit' : Command α}

theorem discarded (h : p.Shadows q) (a : FailureAction) :
    (p.discarded a).Shadows (q.discarded a) := by
  have hsplice : q.session.queues.pending ++ q.session.queues.issued =
      (p.session.queues.pending ++ p.session.queues.issued).filter fun c => !c.header.dying := by
    have hkept : p.session.queues.issued.filter (fun c => !c.header.dying) =
        p.session.queues.issued :=
      List.filter_eq_self.2 fun c hc => by simp [h.alive c hc]
    rw [List.filter_append, hkept, h.pending, h.issued]
  have hclear : q.session.working.restoreAll.clear = p.session.working.restoreAll.clear := by
    rw [h.working]
  -- `clearAll` empties both lines; the others filter what they keep in the same way
  cases a with
  | clearAll => exact ⟨hclear, rfl, rfl, rfl, h.ids, h.memory, rfl, by simp [Pass.discarded]⟩
  | clearCurrent | clearCurrentNoReset =>
    exact ⟨h.working, h.approved, rfl, hsplice, h.ids, h.memory, h.resetIssued,
      by simp [Pass.discarded, Queues.splice]⟩
  | clearNewlyIssued =>
    exact ⟨h.working, h.approved, rfl, h.pending, h.ids, h.memory, h.resetIssued,
      by simp [Pass.discarded, Queues.clearIssued]⟩

theorem rollBack (hblock : ∀ ids, edit'.resetBlock ids = edit.resetBlock ids) (h : p.Shadows q)
    (a : FailureAction) : (p.rollBack edit a).Shadows (q.rollBack edit' a) := by
  have hd := h.discarded a
  rw [rollBack_eq, rollBack_eq, hd.resetIssued]
  split
  · have happroved :
        (q.discarded a).session.queues.approved ++ (edit'.resetBlock (q.discarded a).ids).1 =
        (p.discarded a).session.queues.approved ++ (edit.resetBlock (p.discarded a).ids).1 := by
      rw [hd.approved, hd.ids, hblock]
    have hids :
        (edit'.resetBlock (q.discarded a).ids).2 = (edit.resetBlock (p.discarded a).ids).2 := by
      rw [hd.ids, hblock]
    exact ⟨hd.working, happroved, hd.issued, hd.pending, hids, hd.memory, rfl, hd.alive⟩
  · exact hd

theorem settle (hblock : ∀ ids, edit'.resetBlock ids = edit.resetBlock ids) (h : p.Shadows q)
    (d : Dispatch α) : (p.settle edit d).Shadows (q.settle edit' d) := by
  -- severity, notes, faults and history are not compared
  cases hd : d.verdict with
  | error f =>
    obtain ⟨severity, notes, fault, hp⟩ := settle_fault p edit hd
    obtain ⟨severity', notes', fault', hq⟩ := settle_fault q edit' hd
    have hback := rollBack hblock
      (p := { p with severity, notes, fault, history := p.history ++ [d] })
      (q := { q with
        severity := severity', notes := notes', fault := fault', history := q.history ++ [d] })
      { h with } .clearAll
    rw [hp, hq]
    exact hback
  | ok r =>
    cases hr : r.approved with
    | true =>
      rw [settle_approved p edit hd hr, settle_approved q edit' hd hr]
      have hsplice := (h.discarded .clearCurrent).pending
      have happroved : q.session.queues.approved ++ [d.left] = p.session.queues.approved ++
          [d.left] := by
        rw [h.approved]
      exact ⟨h.working, happroved, rfl, hsplice, h.ids, h.memory, h.resetIssued,
        by simp [Queues.splice]⟩
    | false =>
      obtain ⟨severity, notes, hp⟩ := settle_rejected p edit hd hr
      obtain ⟨severity', notes', hq⟩ := settle_rejected q edit' hd hr
      have hback := rollBack hblock (p := { p with severity, history := p.history ++ [d] })
        (q := { q with severity := severity', history := q.history ++ [d] }) { h with }
          r.failureAction
      rw [hp, hq]
      exact { hback with }

end Pass.Shadows

/-!
## Turns beside each other

The turn of a command that is not superseded has its counterpart in the shadow. That of a superseded
one has none, and so must leave nothing behind.
-/

/-- Between turns: nothing is on trial or issued,
and single commands are in line that are checked. -/
structure Pass.Ready (p : Pass α μ) : Prop where
  pocket : p.session.working.pocket = .empty
  issued : p.session.queues.issued = []
  pending : ∀ c ∈ p.session.queues.pending, ∃ h e, c = .single h e ∧ h.forced = false

namespace Validator

variable [Scalar α] {v : Validator α μ} {scene : Scene α} {edit edit' : Command α}
  {p q p' : Pass α μ}

omit [Scalar α] in
/-- A pass that starts is ready if nothing in the edit is forced. -/
theorem ready_start (hforced : ∀ c ∈ edit.leaves, c.header.forced = false) (session : Session α)
    (ids : IdSource) (memory : μ) : (v.start session ids memory edit).Ready where
  pocket := WorkingSet.pocket_restoreAll session.working
  issued := by rw [queues_start]
  pending := by
    rw [queues_start]
    intro c hc
    obtain ⟨h, e, rfl⟩ := Command.single_of_mem_leaves hc
    exact ⟨h, e, rfl, hforced _ hc⟩

theorem Reaches.history_subset (h : v.Reaches scene edit p q) : p.history ⊆ q.history := by
  intro d hd
  refine h.invariant (P := fun q => d ∈ q.history) hd fun a b ha hstep => ?_
  obtain ⟨c, rest, _, rfl⟩ := step?_eq_some.1 hstep
  rw [Pass.history_settle]
  exact List.mem_append_left _ ha

variable [NumberText α]

/-- What rules of the library issue has no flags. -/
theorem issued_tried (hv : v.Builtin) (scene : Scene α) (p : Pass α μ) (c : Command α) :
    ∀ d ∈ (v.tried scene p c).issued, ∃ id e, d = .single { id := id } e := fun d hd =>
  ((judge_modest hv scene (trial p c)).2.1 d hd).resolve_left (by simp [trial])

theorem ready_step? (hv : v.Builtin) (h : p.Ready) (hstep : v.step? scene edit p = some p') :
    p'.Ready := by
  refine ⟨pocket_step? h.pocket hstep, ?_, fun d hd => ?_⟩
  · obtain ⟨c, rest, _, rfl⟩ := step?_eq_some.1 hstep
    exact Pass.issued_settle ..
  · obtain ⟨c, rest, hpending, rfl⟩ := step?_eq_some.1 hstep
    rcases mem_pending_step? h.issued hd with hd | hd
    · exact h.pending d (by rw [hpending]; exact List.mem_cons_of_mem _ hd)
    · obtain ⟨id, e, rfl⟩ := issued_tried hv scene p c d hd
      exact ⟨_, e, rfl, rfl⟩

theorem rejected_of_dying (hv : v.Standard) (p : Pass α μ) {header : Header} {e : Edit α}
    (hforced : header.forced = false) (hdying : header.dying = true) :
    (v.turn scene p (.single header e)).action? ≠ none := by
  intro haction
  obtain ⟨r, hr, happroved⟩ := Dispatch.exists_approved haction
  have hjudge := judge_of_verdict hr
  obtain ⟨rules, hrules⟩ := Rule.standard_dieCheck (μ := μ) v.config.rules e
  have hbuiltin := hv.builtin_standard e.kind
  rw [judge_standard hv scene rfl hforced, hrules] at hjudge
  rw [hrules] at hbuiltin
  -- the first rule of the list vetoes, and its veto stands
  obtain ⟨v₁, hv₁, hrun⟩ := Checklist.run_cons_eq_ok.1 (Prod.ext rfl hjudge)
  obtain ⟨_, _, hveto⟩ :=
    Checklist.run_modest (fun r hr => hbuiltin r (List.mem_cons_of_mem _ hr)) hrun
  have happroved₁ : v₁.approved = true := (hveto r rfl).1 happroved
  simp only [Rule.dieCheck, Rule.judging, trial, Command.header, hdying, if_true,
    Except.ok.injEq] at hv₁
  rw [← hv₁] at happroved₁
  exact Rule.approved_reject happroved₁

/-- In a pass over commands that are checked, each superseded one was rejected. -/
theorem rejected_of_reaches (hv : v.Standard) (hp : p.Ready)
    (hold : ∀ d ∈ p.history, d.given.header.dying = true → d.action? ≠ none)
    (hreach : v.Reaches scene edit p q) :
    ∀ d ∈ q.history, d.given.header.dying = true → d.action? ≠ none := by
  have hinv : q.Ready ∧ ∀ d ∈ q.history, d.given.header.dying = true → d.action? ≠ none := by
    -- readiness is carried along: a dying command in the line came with the edit
    refine hreach.invariant (P := fun q => q.Ready ∧
      ∀ d ∈ q.history, d.given.header.dying = true → d.action? ≠ none) ⟨hp, hold⟩ ?_
    rintro a b ⟨ha, hold⟩ hstep
    refine ⟨ready_step? hv.builtin ha hstep, ?_⟩
    obtain ⟨c, rest, hpending, rfl⟩ := step?_eq_some.1 hstep
    rw [Pass.history_settle]
    intro d hd hdying
    rcases List.mem_append.1 hd with hd | hd
    · exact hold d hd hdying
    · obtain rfl := List.mem_singleton.1 hd
      obtain ⟨header, e, rfl, hheader⟩ := ha.pending c (by rw [hpending]; exact List.mem_cons_self)
      exact rejected_of_dying hv a hheader hdying
  exact hinv.2

omit [Scalar α] [NumberText α] in
/-- A trial starts from the same in the pass and in its shadow. -/
theorem trial_congr (h : p.Shadows q) (c : Command α) : (trial q c : Trial α μ) = trial p c := by
  unfold trial
  rw [h.working, h.ids, h.memory]

/-- Of a command that is not superseded, both passes take the turn. -/
theorem shadows_turn (hv : v.Builtin) (hblock : ∀ ids, edit'.resetBlock ids = edit.resetBlock ids)
    (hp : p.Ready) (h : p.Shadows q) {c : Command α} {rest : List (Command α)}
    (hpending : p.session.queues.pending = c :: rest) (hlive : c.header.dying = false) :
    ∃ q', v.step? scene edit' q = some q' ∧
      ((v.judged scene p c rest).settle edit (v.turn scene p c)).Shadows q' := by
  have hline : q.session.queues.pending = c :: rest.filter fun d => !d.header.dying := by
    rw [h.pending, hpending, List.filter_cons_of_pos (by simp [hlive])]
  have htried : v.tried scene q c = v.tried scene p c := by unfold tried; rw [trial_congr h]
  -- both passes try the command on one session, so the two turns are one
  have hconcluded : v.concluded scene q c = v.concluded scene p c := by
    unfold concluded
    rw [htried, trial_congr h]
  have hturn : v.turn scene q c = v.turn scene p c := by unfold turn; rw [htried, hconcluded]
  have hjudged : (v.judged scene p c rest).Shadows
      (v.judged scene q c (rest.filter fun d => !d.header.dying)) := by
    refine ⟨congrArg Prod.fst hconcluded, h.approved, ?_, rfl, congrArg Trial.ids htried,
      congrArg Trial.memory htried, h.resetIssued, fun d hd => ?_⟩
    · show q.session.queues.issued ++ _ = p.session.queues.issued ++ _
      rw [h.issued, htried]
    · have hd : d ∈ p.session.queues.issued ++ (v.tried scene p c).issued := hd
      rw [hp.issued, List.nil_append] at hd
      obtain ⟨id, e, rfl⟩ := issued_tried hv scene p c d hd
      rfl
  have hsettled := hjudged.settle hblock (v.turn scene p c)
  rw [← hturn] at hsettled ⊢
  exact ⟨_, step?_eq_some.2 ⟨c, _, hline, rfl⟩, hsettled⟩

/-- The turn of a superseded command leaves no trace, if it neither restores nor issues anything. -/
theorem shadows_dying (hv : v.Standard) (hp : p.Ready) (h : p.Shadows q) {c : Command α}
    {rest : List (Command α)} (hpending : p.session.queues.pending = c :: rest)
    (hdying : c.header.dying = true) (hresets : (v.turn scene p c).resets = false)
    (hissued : (v.turn scene p c).issued = []) :
    ((v.judged scene p c rest).settle edit (v.turn scene p c)).Shadows q := by
  obtain ⟨header, e, hc, hforced⟩ := hp.pending c (by rw [hpending]; exact List.mem_cons_self)
  subst hc
  -- the command is rejected, with the one action that has nothing restored
  have haction : (v.turn scene p (.single header e)).action? = some .clearCurrentNoReset :=
    Dispatch.action?_of_resets (rejected_of_dying hv p hforced hdying) hresets
  obtain ⟨r, hr, happroved, hkept⟩ := Dispatch.exists_rejected haction (by decide)
  have hjudge := judge_of_verdict hr
  obtain ⟨hmemory, _, hids⟩ := judge_modest hv.builtin scene (trial p (.single header e))
  have hworking := working_of_action? hp.pocket haction
  have hnone : p.session.queues.issued ++ (v.tried scene p (.single header e)).issued = [] := by
    rw [hp.issued, List.nil_append]
    exact hissued
  obtain ⟨severity, notes, hs⟩ :=
    Pass.settle_rejected (v.judged scene p (.single header e) rest) edit hr
    happroved
  rw [hs, Pass.rollBack_eq, hkept, if_neg (by simp [FailureAction.resetsScene])]
  refine ⟨h.working.trans hworking.symm, h.approved, h.issued.trans hp.issued, ?_,
    h.ids.trans (hids r hjudge hissued).symm, h.memory.trans hmemory.symm, h.resetIssued, ?_⟩
  · show _ = (rest ++ (p.session.queues.issued ++ _)).filter _
    rw [hnone, List.append_nil, h.pending, hpending, List.filter_cons_of_neg]
    simpa using hdying
  · intro d hd
    cases hd

/-- A pass that comes to an end has a shadow that does, without the turns of what is superseded. -/
theorem shadows_run (hv : v.Standard) (hblock : ∀ ids, edit'.resetBlock ids = edit.resetBlock ids)
    {budget : Nat} (hp : p.Ready) (h : p.Shadows q) (hrun : v.run scene edit budget p = some p')
    (hdying : ∀ d ∈ p'.history, d.given.header.dying = true → d.resets = false ∧ d.issued = []) :
    ∃ q', v.run scene edit' budget q = some q' ∧ p'.Shadows q' := by
  induction budget generalizing p q with
  | zero =>
    unfold run at hrun
    split at hrun
    · next hempty =>
      cases hrun
      have hnil : q.session.queues.pending = [] := by
        rw [h.pending, List.isEmpty_iff.1 hempty]
        rfl
      exact ⟨q, run_of_pending hnil, h⟩
    · cases hrun
  | succ budget ih =>
    cases hstep : v.step? scene edit p with
    | none =>
      have hnil : q.session.queues.pending = [] := by
        rw [h.pending, step?_eq_none.1 hstep]
        rfl
      rw [run, hstep] at hrun
      cases hrun
      exact ⟨q, run_of_pending hnil, h⟩
    | some p₁ =>
      rw [run_of_step? budget hstep] at hrun
      have hready := ready_step? hv.builtin hp hstep
      obtain ⟨c, rest, hpending, rfl⟩ := step?_eq_some.1 hstep
      cases hc : c.header.dying with
      | false =>
        obtain ⟨q₁, hq₁, hshadows⟩ := shadows_turn hv.builtin hblock hp h hpending hc
        rw [run_of_step? budget hq₁]
        exact ih hready hshadows hrun
      | true =>
        -- the shadow waits, and has a turn left over at the end
        have hmem : v.turn scene p c ∈ p'.history := by
          refine (reaches_of_run hrun).1.history_subset ?_
          rw [Pass.history_settle]
          exact List.mem_append_right _ (List.mem_singleton_self _)
        obtain ⟨hresets, hissued⟩ := hdying _ hmem hc
        obtain ⟨q', hq', hshadows⟩ :=
          ih hready (shadows_dying hv hp h hpending hc hresets hissued) hrun
        exact ⟨q', run_succ hq', hshadows⟩

/--
**Superseded commands are not executed, and can be left out.** Under the default bindings no
superseded command is approved. Where everything under a superseded composite is superseded, and no
superseded command has the scene restored or issues another command, the pruned edit comes to the
same commands.
-/
theorem superseded_ineffective (hv : v.Standard) (hedit : edit.header.forced = false)
    (hforced : ∀ c ∈ edit.leaves, c.header.forced = false) {budget : Nat} {session : Session α}
    {ids : IdSource} {memory : μ} {result : Validation α μ}
    (h : v.validate budget scene session ids memory edit = some result) :
    (∀ d ∈ result.history, d.given.header.dying = true → d.action? ≠ none) ∧
    (edit.diesWhole = true →
      (∀ d ∈ result.history, d.given.header.dying = true → d.resets = false ∧ d.issued = []) →
      ∃ result', v.validate budget scene session ids memory edit.pruned = some result' ∧
        result'.outcome.command.members = result.outcome.command.members) := by
  have hchecks : ∀ {c : Command α}, c.header.forced = false → v.checks c = true := fun hc => by
    unfold checks
    rw [hv.checking, hc]
    rfl
  have hready := ready_start (v := v) hforced session ids memory
  constructor
  · obtain ⟨q, hreach, _, hhistory, _⟩ := pass_of_validate (hchecks hedit) h
    rw [hhistory]
    exact rejected_of_reaches hv hready (by simp [start]) hreach
  · intro hwhole hdying
    -- the pruned pass starts with the same line, less its dying members
    have hstart :
        (v.start session ids memory edit).Shadows (v.start session ids memory edit.pruned) := by
      refine ⟨rfl, ?_, ?_, ?_, rfl, rfl, rfl, ?_⟩ <;> simp only [queues_start]
      · exact Command.leaves_pruned hwhole
      · simp
    unfold validate at h ⊢
    rw [hchecks hedit] at h
    rw [hchecks (Command.forced_pruned hedit)]
    obtain ⟨q, hrun, rfl⟩ := Option.map_eq_some_iff.1 h
    obtain ⟨q', hrun', hshadows⟩ :=
      shadows_run hv (Command.resetBlock_pruned hwhole) hready hstart hrun hdying
    rw [hrun']
    exact ⟨_, rfl, hshadows.approved⟩

/-- One block. -/
def lone : Scene Float := sceneOf [Entity.new 1 .model (.splat 1)]

/-- The block is moved twice, and a drag in between was superseded. -/
def redrawn : Command Float :=
  .composite { id := 1 } "redraw"
    [.single { id := 2 } (.move 1 (.splat 0) ⟨0, 0, 9⟩),
      .composite { id := 3, dying := true } "drag"
        [.single { id := 4, dying := true } (.move 1 ⟨0, 0, 9⟩ ⟨0, 9, 9⟩)],
      .single { id := 5 } (.move 1 ⟨0, 0, 9⟩ ⟨9, 0, 9⟩)]

/-- The superseded drag leaves nothing to execute: the two moves are all there is,
with it and without it. -/
theorem superseded_ineffective_redrawn : ∃ result result' : Validation Float Unit,
    (plain true).validate 3 lone .fresh {} () redrawn = some result ∧
    (plain true).validate 3 lone .fresh {} () redrawn.pruned = some result' ∧
    result'.outcome.command.members = result.outcome.command.members ∧
    result.outcome.approved = false ∧ result.outcome.command.members.length = 2 := by
  have hrun : ((plain true).validate 3 lone .fresh {} () redrawn).any (fun r =>
      (r.history.all fun d => !d.given.header.dying || (!d.resets && d.issued.isEmpty)) &&
        !r.outcome.approved && r.outcome.command.members.length == 2) = true := by decide +kernel
  obtain ⟨result, h, hrun⟩ := (Option.any_eq_true _ _).1 hrun
  simp only [Bool.and_eq_true, beq_iff_eq] at hrun
  obtain ⟨⟨hhistory, happroved⟩, hlength⟩ := hrun
  obtain ⟨_, hpruned⟩ := superseded_ineffective (standard_plain true) rfl (by decide) h
  obtain ⟨result', h', hmembers⟩ := hpruned (by decide) fun d hd hdying => by
    have hd := List.all_eq_true.1 hhistory d hd
    simpa [hdying] using hd
  exact ⟨result, result', h, h', hmembers, by simpa using happroved, hlength⟩

/-- The shelf is taken away, and then it is not. -/
def withdrawn : Command Float := .single { id := 1, dying := true } (.remove .entity 1)

/-- The removals of the children are issued whether or not the removal of
the shelf is superseded. -/
theorem not_superseded_ineffective :
    ∃ result result' : Validation Float Unit, (plain true).Standard ∧
    shelf.LinkConsistent ∧ shelf.Acyclic ∧ withdrawn.header.forced = false ∧
    (∀ c ∈ withdrawn.leaves, c.header.forced = false) ∧
    (plain true).validate 64 shelf .fresh {} () withdrawn = some result ∧
    (plain true).validate 64 shelf .fresh {} () withdrawn.pruned = some result' ∧
    result.outcome.command.members.length = 2 ∧ result'.outcome.command.members.length = 0 := by
  have hacyclic : shelf.Acyclic :=
    Scene.acyclic_of_rank (show shelf.falls UInt64.toNat = true by decide)
  have hrun : ((plain true).validate 64 shelf .fresh {} () withdrawn).any
      (·.outcome.command.members.length == 2) = true := by decide +kernel
  have hrun' : ((plain true).validate 64 shelf .fresh {} () withdrawn.pruned).any
      (·.outcome.command.members.length == 0) = true := by decide +kernel
  obtain ⟨result, h, hlength⟩ := (Option.any_eq_true _ _).1 hrun
  obtain ⟨result', h', hlength'⟩ := (Option.any_eq_true _ _).1 hrun'
  exact ⟨result, result', standard_plain true, by decide, hacyclic, rfl, by decide, h, h',
    beq_iff_eq.1 hlength, beq_iff_eq.1 hlength'⟩

/-- Edits in which something superseded shows, each in its own way. -/
def traces : List (Command Float) :=
  [ -- a live command stands under a superseded composite
    .composite { id := 1 } "batch" [.composite { id := 2, dying := true } "drag"
      [.single { id := 3 } (.move 1 (.splat 0) ⟨0, 0, 9⟩)]],
    -- a superseded scaling is out of range, and has the block put back
    .composite { id := 1 } "batch" [.single { id := 2 } (.move 1 (.splat 0) ⟨0, 0, 9⟩),
      .single { id := 3, dying := true } (.scale 1 ⟨⟨0, 0, 9⟩, .splat 1⟩ ⟨⟨0, 0, 9⟩, .splat 1000⟩)],
    -- a superseded move of what is not there is a fault, and clears everything
    .composite { id := 1 } "batch" [.single { id := 2 } (.move 1 (.splat 0) ⟨0, 0, 9⟩),
      .single { id := 3, dying := true } (.move 7 (.splat 0) ⟨0, 0, 9⟩)]]

/-- For each command that is executed, whether it is a reset command. -/
def executed (edit : Command Float) : Option (List Bool) :=
  ((plain true).validate 64 lone .fresh {} () edit).map fun r =>
    r.outcome.command.members.map (·.header.forced)

/-- **What is superseded may show.** Under a composite, out of range or at fault, it makes a
difference to what is executed. -/
theorem traces_show : ∀ edit ∈ traces,
    (executed edit).isSome ∧ (executed edit.pruned).isSome ∧
      executed edit ≠ executed edit.pruned := by
  decide +kernel

end Validator

end SceneGuard
