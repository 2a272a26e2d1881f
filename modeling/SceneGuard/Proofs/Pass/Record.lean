import Mathlib.Data.List.Basic
import SceneGuard.Number.Decimal
import SceneGuard.Proofs.Pass.Steps
import SceneGuard.Rule.Catalog

/-!
# What a pass executes

A pass keeps a history of its turns. Whatever the rules do, the approved queue, the fault and the
failure of a pass are read off that history (`Pass.Recorded`): approved commands in order, the reset
block behind them at the first turn that had the scene restored, and nothing but the block once a
turn cleared everything. Main statements:

* `recorded_settle`, `recorded_of_reaches` — a turn keeps the record, and so every pass is on
  record;
* `executed_exactly` — what an outcome executes.
-/

namespace SceneGuard

variable {α μ : Type}

namespace Dispatch

/-- The command as it was approved. -/
def approval? (d : Dispatch α) : Option (Command α) :=
  match d.verdict with
  | .ok r => if r.approved then some d.left else none
  | .error _ => none

/-- The action that the command fell with; none when it was approved. A fault clears all. -/
def action? (d : Dispatch α) : Option FailureAction :=
  match d.verdict with
  | .ok r => if r.approved then none else some r.failureAction
  | .error _ => some .clearAll

/-- The fault that the turn ended in. -/
def fault? (d : Dispatch α) : Option (Fault α) :=
  match d.verdict with
  | .ok _ => none
  | .error f => some f

/-- The command fell with an action that has the scene restored. -/
def resets (d : Dispatch α) : Bool := d.action?.any (·.resetsScene)

variable {d : Dispatch α} {a : FailureAction} {r : Verdict α}

theorem action?_of_approved (hd : d.verdict = .ok r) (hr : r.approved = true) :
    d.action? = none := by
  simp [action?, hd, hr]

theorem exists_approved (h : d.action? = none) : ∃ r, d.verdict = .ok r ∧ r.approved = true := by
  unfold action? at h
  cases hd : d.verdict with
  | error f => rw [hd] at h; cases h
  | ok r =>
    cases hr : r.approved with
    | true => exact ⟨r, rfl, hr⟩
    | false => simp [hd, hr] at h

/-- An action short of clearing everything comes from a rejection that names it. -/
theorem exists_rejected (h : d.action? = some a) (ha : a ≠ .clearAll) :
    ∃ r, d.verdict = .ok r ∧ r.approved = false ∧ r.failureAction = a := by
  unfold action? at h
  cases hd : d.verdict with
  | error f => rw [hd] at h; exact absurd (Option.some.inj h).symm ha
  | ok r =>
    cases hr : r.approved with
    | true => simp [hd, hr] at h
    | false => exact ⟨r, rfl, hr, by simpa [hd, hr] using h⟩

/-- What is left by an approval is approved. -/
theorem approval?_of_action? (h : d.action? = none) : d.approval? = some d.left := by
  obtain ⟨r, hd, hr⟩ := exists_approved h
  simp [approval?, hd, hr]

theorem approval?_eq_none (h : d.action? = some a) : d.approval? = none := by
  cases hd : d.verdict with
  | error f => simp [approval?, hd]
  | ok r =>
    cases hr : r.approved with
    | true => rw [action?_of_approved hd hr] at h; cases h
    | false => simp [approval?, hd, hr]

theorem approval?_of_resets (h : d.resets = true) : d.approval? = none := by
  obtain ⟨a, ha, _⟩ := (Option.any_eq_true _ _).1 h
  exact approval?_eq_none ha

/-- The one action that does not put the scene back is named so. -/
theorem action?_of_resets (h : d.action? ≠ none) (hresets : d.resets = false) :
    d.action? = some .clearCurrentNoReset := by
  unfold resets at hresets
  cases ha : d.action? with
  | none => exact absurd ha h
  | some a => cases a <;> first | rfl | (rw [ha] at hresets; cases hresets)

theorem fault?_eq_none (h : d.action? ≠ some .clearAll) : d.fault? = none := by
  unfold action? at h
  unfold fault?
  cases hd : d.verdict with
  | error f => rw [hd] at h; exact absurd rfl h
  | ok r => rfl

end Dispatch

namespace Pass

variable {p : Pass α μ} {edit : Command α} {d : Dispatch α} {a : FailureAction}

/-- The commands approved so far, as their rules left them. -/
def approvals (p : Pass α μ) : List (Command α) := p.history.filterMap Dispatch.approval?

/-!
## What a turn leaves

For each part of a pass it is said what a turn makes of it, by the action that its verdict calls
for. Rules do not come up any more.
-/

/-- Any other action discards from the queues and leaves the rest of the session. -/
theorem discarded_of_ne_clearAll {action : FailureAction} (haction : action ≠ .clearAll)
    (p : Pass α μ) :
    ∃ queues, p.discarded action = { p with session := { p.session with queues }, failed := true } ∧
      queues.approved = p.session.queues.approved ∧ queues.issued = [] ∧
      (queues.pending = p.session.queues.pending ++ p.session.queues.issued ∨
        queues.pending = p.session.queues.pending) := by
  cases action with
  | clearAll => exact absurd rfl haction
  | clearNewlyIssued => exact ⟨p.session.queues.clearIssued, rfl, rfl, rfl, .inr rfl⟩
  | _ => exact ⟨p.session.queues.splice, rfl, rfl, rfl, .inl rfl⟩

/-- To go back does not change the history. -/
@[simp] theorem history_rollBack (edit : Command α) (action : FailureAction) (p : Pass α μ) :
    (p.rollBack edit action).history = p.history := by
  rw [rollBack_eq]
  split <;> cases action <;> rfl

@[simp] theorem fault_rollBack (edit : Command α) (action : FailureAction) (p : Pass α μ) :
    (p.rollBack edit action).fault = p.fault := by
  rw [rollBack_eq]
  split <;> cases action <;> rfl

/-- After a rejection the block is in line if it was, or if the action asks for it. -/
theorem resetIssued_rollBack (edit : Command α) (a : FailureAction) (p : Pass α μ) :
    (p.rollBack edit a).resetIssued = (a.resetsScene || p.resetIssued) := by
  rw [rollBack_eq]
  cases a <;> cases h :
    p.resetIssued <;> simp [discarded, FailureAction.resetsScene, resetInLine, h]

/-- It goes behind what was approved, and no second time. -/
theorem approved_rollBack (edit : Command α) (h : a ≠ .clearAll) (p : Pass α μ) :
    (p.rollBack edit a).session.queues.approved = p.session.queues.approved ++
      if a.resetsScene && !p.resetIssued then (edit.resetBlock p.ids).1 else [] := by
  obtain ⟨queues, hq, happroved, _⟩ := discarded_of_ne_clearAll h p
  rw [rollBack_eq, hq]
  split
  · simp [resetInLine, happroved]
  · simp [happroved]

/-- To clear everything leaves the reset block, and no surrogate. -/
theorem session_rollBack_clearAll (edit : Command α) (p : Pass α μ) :
    (p.rollBack edit .clearAll).session =
      { working := p.session.working.restoreAll.clear
        queues := { approved := (edit.resetBlock p.ids).1 } } := by
  rw [rollBack_eq]
  rfl

/-- A rejection looks at the session, the numbers and whether the block is in line,
and at nothing else. -/
theorem session_rollBack_congr {p' : Pass α μ} (edit : Command α) (a : FailureAction)
    (hsession : p'.session = p.session) (hids : p'.ids = p.ids)
    (hissued : p'.resetIssued = p.resetIssued) :
    (p'.rollBack edit a).session = (p.rollBack edit a).session := by
  unfold rollBack
  cases hr : p.resetIssued <;> cases a <;>
    simp [hsession, hids, hissued, hr, FailureAction.resetsScene]

theorem history_settle (p : Pass α μ) (edit : Command α) (d : Dispatch α) :
    (p.settle edit d).history = p.history ++ [d] := by
  unfold settle
  cases d.verdict with
  | error f => exact history_rollBack ..
  | ok r => simp only; split <;> simp

theorem fault_settle (p : Pass α μ) (edit : Command α) (d : Dispatch α) :
    (p.settle edit d).fault = (p.fault <|> d.fault?) := by
  unfold settle Dispatch.fault?
  cases d.verdict with
  | error f => exact fault_rollBack ..
  | ok r => simp only; split <;> simp

/-- A pass has failed when one of its turns called for an action. -/
theorem failed_settle (p : Pass α μ) (edit : Command α) (d : Dispatch α) :
    (p.settle edit d).failed = (p.failed || d.action?.isSome) := by
  unfold settle Dispatch.action?
  cases d.verdict with
  | error f => simp
  | ok r => cases hr : r.approved <;> simp [hr]

/-- A turn that calls for an action ends as the action says. -/
theorem settle_of_action? (p : Pass α μ) (edit : Command α) (h : d.action? = some a) :
    (p.settle edit d).session = (p.rollBack edit a).session ∧
      (p.settle edit d).resetIssued = (p.rollBack edit a).resetIssued := by
  unfold settle
  unfold Dispatch.action? at h
  -- a fault rolls back with `clearAll`, a rejection with its own action
  cases hd : d.verdict with
  | error f =>
    rw [hd] at h
    cases h
    exact ⟨rfl, rfl⟩
  | ok r =>
    rw [hd] at h
    simp only at h ⊢
    split at h
    · cases h
    · next hr =>
      cases h
      rw [if_neg hr]
      refine ⟨session_rollBack_congr edit _ rfl rfl rfl, ?_⟩
      show (rollBack edit r.failureAction _).resetIssued = _
      rw [resetIssued_rollBack, resetIssued_rollBack]

/-- A turn that approves puts its command behind those approved, and what was issued in line. -/
theorem settle_of_approval (p : Pass α μ) (edit : Command α) (h : d.action? = none) :
    (p.settle edit d).session.queues = (p.session.queues.addApproved d.left).splice ∧
      (p.settle edit d).resetIssued = p.resetIssued := by
  obtain ⟨r, hd, hr⟩ := Dispatch.exists_approved h
  rw [settle_approved p edit hd hr]
  exact ⟨rfl, rfl⟩

/-- The approvals of a pass are those of its turns. -/
theorem approvals_settle (p : Pass α μ) (edit : Command α) (d : Dispatch α) :
    (p.settle edit d).approvals = p.approvals ++ d.approval?.toList := by
  unfold approvals
  rw [history_settle, List.filterMap_append]
  cases h : d.approval? <;> simp [h]

/-- Short of clearing everything, a rejection leaves the working set. -/
theorem working_settle (p : Pass α μ) (edit : Command α) (h : d.action? = some a)
    (ha : a ≠ .clearAll) : (p.settle edit d).session.working = p.session.working := by
  obtain ⟨queues, hq, _⟩ := discarded_of_ne_clearAll ha p
  rw [(settle_of_action? p edit h).1, rollBack_eq, hq]
  split <;> rfl

/-- After everything was cleared nothing is in line. -/
theorem pending_settle_clearAll (p : Pass α μ) (edit : Command α) (h : d.action? = some .clearAll) :
    (p.settle edit d).session.queues.pending = [] := by
  rw [(settle_of_action? p edit h).1, session_rollBack_clearAll]

/-- After a turn nothing is left of what was issued in it, except in line. -/
theorem issued_settle (p : Pass α μ) (edit : Command α) (d : Dispatch α) :
    (p.settle edit d).session.queues.issued = [] := by
  cases ha : d.action? with
  | none => rw [(settle_of_approval p edit ha).1]; rfl
  | some a =>
    rw [(settle_of_action? p edit ha).1, rollBack_eq]
    split <;> cases a <;> rfl

/-- What is in line after a turn was in line before, or issued. -/
theorem mem_pending_settle {c : Command α}
    (hc : c ∈ (p.settle edit d).session.queues.pending) :
    c ∈ p.session.queues.pending ∨ c ∈ p.session.queues.issued := by
  cases ha : d.action? with
  | none =>
    rw [(settle_of_approval p edit ha).1] at hc
    exact List.mem_append.1 hc
  | some a =>
    rw [(settle_of_action? p edit ha).1, rollBack_eq] at hc
    have hc : c ∈ (p.discarded a).session.queues.pending := by split at hc <;> exact hc
    cases a with
    | clearAll => cases hc
    | clearCurrent | clearCurrentNoReset => exact List.mem_append.1 hc
    | clearNewlyIssued => exact .inl hc

/-!
## The record of a pass

As long as nothing is cleared, the approved queue can be written down from the history. The turn
that clears everything is the last one, and after it there is the reset block only.
-/

/--
What the approved queue of a pass that goes on has to do with its turns, of which none cleared
everything: what was approved is in line, and in between the reset block, if a turn had the scene
restored.
-/
inductive Going (edit : Command α) (p : Pass α μ) : Prop where
  | kept (hresets : ∀ d ∈ p.history, d.resets = false) (hissued : p.resetIssued = false)
      (happroved : p.session.queues.approved = p.approvals)
  | restored (before : List (Dispatch α)) (d : Dispatch α) (after : List (Dispatch α))
      (ids : IdSource) (hhistory : p.history = before ++ d :: after) (hd : d.resets = true)
      (hbefore : ∀ x ∈ before, x.resets = false) (hissued : p.resetIssued = true)
      (happroved : p.session.queues.approved =
        before.filterMap Dispatch.approval? ++ (edit.resetBlock ids).1 ++
          after.filterMap Dispatch.approval?)

/-- What is left of a pass whose last turn cleared everything. -/
structure Cleared (edit : Command α) (p : Pass α μ) : Prop where
  last : ∃ before d, p.history = before ++ [d] ∧ d.action? = some .clearAll ∧ p.fault = d.fault? ∧
    ∀ x ∈ before, x.action? ≠ some .clearAll
  pending : p.session.queues.pending = []
  approved : ∃ ids, p.session.queues.approved = (edit.resetBlock ids).1
  pocket : p.session.working.pocket = .empty
  surrogates : p.session.working.surrogates = .empty

/-- The record of a pass at any point. -/
def Recorded (edit : Command α) (p : Pass α μ) : Prop :=
  (p.Going edit ∧ p.fault = none ∧ ∀ d ∈ p.history, d.action? ≠ some .clearAll) ∨ p.Cleared edit

/-- The turn that clears everything is the last one, and the record says so. -/
theorem cleared_settle (hfault : p.fault = none)
    (hhistory : ∀ x ∈ p.history, x.action? ≠ some .clearAll) (hd : d.action? = some .clearAll) :
    (p.settle edit d).Cleared edit := by
  have hsession := (settle_of_action? p edit hd).1
  rw [session_rollBack_clearAll] at hsession
  refine ⟨⟨p.history, d, history_settle p edit d, hd, ?fault, hhistory⟩, ?pending,
    ⟨p.ids, ?approved⟩, ?pocket, ?surrogates⟩
  case fault =>
    rw [fault_settle, hfault]
    rfl
  case pending => rw [hsession]
  case approved => rw [hsession]
  case pocket =>
    rw [hsession]
    exact WorkingSet.pocket_restoreAll p.session.working
  case surrogates =>
    rw [hsession]
    rfl

/-- An approval is put on record, and the pass goes on. -/
theorem Going.approve (h : p.Going edit) (hd : d.action? = none) :
    (p.settle edit d).Going edit := by
  obtain ⟨hqueues, hissued⟩ := settle_of_approval p edit hd
  have hresets : d.resets = false := by rw [Dispatch.resets, hd]; rfl
  have happroval := Dispatch.approval?_of_action? hd
  have hqueue : (p.settle edit d).session.queues.approved = p.session.queues.approved ++
      [d.left] := by
    rw [hqueues]
    rfl
  -- approving adds to the history and to the queue, before a restoration and after it
  cases h with
  | kept hnone hno happroved =>
    refine .kept (fun x hx => ?_) (hissued.trans hno) ?_
    · rw [history_settle] at hx
      exact (List.mem_append.1 hx).elim (hnone x) fun hx => List.mem_singleton.1 hx ▸ hresets
    · rw [approvals_settle, happroval, hqueue, happroved]
      rfl
  | restored before x after ids hhistory hx hbefore hyes happroved =>
    refine .restored before x (after ++ [d]) ids ?_ hx hbefore (hissued.trans hyes) ?_
    · rw [history_settle, hhistory, List.append_assoc]
      rfl
    · rw [hqueue, happroved, List.filterMap_append, ← List.append_assoc]
      simp [happroval]

theorem Going.reject (h : p.Going edit) {a : FailureAction} (hd : d.action? = some a)
    (ha : a ≠ .clearAll) : (p.settle edit d).Going edit := by
  obtain ⟨hsession, hissued⟩ := settle_of_action? p edit hd
  have happroval := Dispatch.approval?_eq_none hd
  have hresets : d.resets = a.resetsScene := by rw [Dispatch.resets, hd]; rfl
  have hqueue := approved_rollBack edit ha p
  rw [← hsession] at hqueue
  rw [resetIssued_rollBack] at hissued
  cases h with
  | kept hnone hno happroved =>
    rw [happroved, hno, Bool.not_false, Bool.and_true] at hqueue
    rw [hno, Bool.or_false] at hissued
    cases hreset : a.resetsScene with
    | false =>
      refine .kept (fun x hx => ?_) (hissued.trans hreset) ?_
      · rw [history_settle] at hx
        refine (List.mem_append.1 hx).elim (hnone x) fun hx => ?_
        rw [List.mem_singleton.1 hx, hresets, hreset]
      · rw [approvals_settle, happroval, hqueue, hreset]
        rfl
    | true =>
      -- the first turn that has the scene restored puts the block behind what was approved before
      refine .restored p.history d [] p.ids (history_settle p edit d) (hresets.trans hreset) hnone
        (hissued.trans hreset) ?_
      rw [hqueue, hreset, List.filterMap_nil, List.append_nil]
      rfl
  | restored before x after ids hhistory hx hbefore hyes happroved =>
    refine .restored before x (after ++ [d]) ids ?_ hx hbefore ?_ ?_
    · rw [history_settle, hhistory, List.append_assoc]
      rfl
    · rw [hissued, hyes, Bool.or_true]
    · rw [hqueue, hyes, Bool.not_true, Bool.and_false, if_neg (by simp), List.append_nil, happroved,
        List.filterMap_append]
      simp [happroval]

/-- A turn keeps the record, as long as nothing was cleared. -/
theorem recorded_settle (h : p.Going edit) (hfault : p.fault = none)
    (hhistory : ∀ x ∈ p.history, x.action? ≠ some .clearAll) (d : Dispatch α) :
    (p.settle edit d).Recorded edit := by
  -- a `clearAll` ends the going part of the record, anything else prolongs it
  by_cases hclear : d.action? = some .clearAll
  · exact .inr (cleared_settle hfault hhistory hclear)
  · refine .inl ⟨?going, ?fault, fun x hx => ?history⟩
    case going =>
      cases hd : d.action? with
      | none => exact h.approve hd
      | some a => exact h.reject hd fun ha => hclear (ha ▸ hd)
    case fault =>
      rw [fault_settle, hfault, Dispatch.fault?_eq_none hclear]
      rfl
    case history =>
      rw [history_settle] at hx
      exact (List.mem_append.1 hx).elim (hhistory x) fun hx => List.mem_singleton.1 hx ▸ hclear

end Pass

namespace Validator

variable [Scalar α] {v : Validator α μ} {scene : Scene α} {edit : Command α} {p p' : Pass α μ}

/-- Where nothing was left over, what is in line after a turn was in line before,
or its rules issued it. -/
theorem mem_pending_step? (hissued : p.session.queues.issued = []) {c d : Command α}
    {rest : List (Command α)}
    (hd : d ∈ ((v.judged scene p c rest).settle edit (v.turn scene p c)).session.queues.pending) :
    d ∈ rest ∨ d ∈ (v.tried scene p c).issued := by
  refine (Pass.mem_pending_settle hd).imp_right fun hd => ?_
  have hd : d ∈ p.session.queues.issued ++ (v.tried scene p c).issued := hd
  rwa [hissued, List.nil_append] at hd

/-- A turn that calls for an action has dropped what was staged in it. -/
theorem working_of_action? (hpocket : p.session.working.pocket = .empty) {c : Command α}
    {a : FailureAction} (h : (v.turn scene p c).action? = some a) :
    (v.concluded scene p c).1 = p.session.working :=
  working_concluded hpocket fun r hr => by
    cases happroved : r.approved with
    | false => rfl
    | true => rw [Dispatch.action?_of_approved hr happroved] at h; cases h

theorem recorded_step? (h : p.Recorded edit) (hstep : v.step? scene edit p = some p') :
    p'.Recorded edit := by
  obtain ⟨c, rest, hpending, rfl⟩ := step?_eq_some.1 hstep
  rcases h with ⟨hgoing, hfault, hhistory⟩ | hcleared
  · -- running the rules changes nothing that the record is about
    have hjudged : (v.judged scene p c rest).Going edit := by
      cases hgoing with
      | kept hresets hissued happroved => exact .kept hresets hissued happroved
      | restored before d after ids h hd hbefore hissued happroved =>
        exact .restored before d after ids h hd hbefore hissued happroved
    exact Pass.recorded_settle hjudged hfault hhistory _
  · rw [hcleared.pending] at hpending
    cases hpending

/-- Whatever the rules do, a pass is on record at every point. -/
theorem recorded_of_reaches {session : Session α} {ids : IdSource} {memory : μ}
    (h : v.Reaches scene edit (v.start session ids memory edit) p) : p.Recorded edit := by
  refine h.invariant (Or.inl ⟨.kept (by intro d hd; cases hd) rfl ?_, rfl, by intro d hd; cases hd⟩)
    fun a b => recorded_step?
  rw [queues_start]
  rfl

/-- A pass has failed when an action was called for in it. -/
theorem failed_of_reaches {session : Session α} {ids : IdSource} {memory : μ}
    (h : v.Reaches scene edit (v.start session ids memory edit) p) :
    p.failed = p.history.any fun d => d.action?.isSome := by
  refine h.invariant (P := fun p => p.failed = p.history.any fun d => d.action?.isSome) rfl
    fun a b ha hstep => ?_
  obtain ⟨c, rest, _, rfl⟩ := step?_eq_some.1 hstep
  have hjudged : (v.judged scene a c rest).failed = (v.judged scene a c rest).history.any fun d =>
    d.action?.isSome := ha
  rw [Pass.failed_settle, Pass.history_settle, List.any_append, hjudged]
  simp

/--
**What is executed.** Whatever the rules do: where a turn cleared everything it was the last one,
the reset block of the edit is all that is executed, and no surrogate is left. Otherwise what was
approved is executed in order, with the reset block in between at the first turn that had the scene
restored, if there is one. The outcome is approved when every command was, and its fault is that of
the last turn.
-/
theorem executed_exactly {budget : Nat} {session : Session α} {ids : IdSource} {memory : μ}
    {result : Validation α μ} (hchecks : v.checks edit = true)
    (h : v.validate budget scene session ids memory edit = some result) :
    (∀ before d after, result.history = before ++ d :: after → d.action? = some .clearAll →
      after = [] ∧ (∃ ids, result.outcome.command.members = (edit.resetBlock ids).1) ∧
        result.session.working.surrogates = .empty) ∧
    ((∀ d ∈ result.history, d.action? ≠ some .clearAll) →
      (∀ d ∈ result.history, d.resets = false) ∧
        result.outcome.command.members = result.history.filterMap Dispatch.approval? ∨
      ∃ before d after ids, result.history = before ++ d :: after ∧ d.resets = true ∧
        (∀ x ∈ before, x.resets = false) ∧ result.outcome.command.members =
          before.filterMap Dispatch.approval? ++ (edit.resetBlock ids).1 ++
            after.filterMap Dispatch.approval?) ∧
    (result.outcome.approved = true ↔ ∀ d ∈ result.history, d.action? = none) ∧
    result.outcome.fault = result.history.getLast?.bind Dispatch.fault? := by
  obtain ⟨q, hreach, _, hhistory, happroved, hfault, hmembers, hworking⟩ :=
    pass_of_validate hchecks h
  have hfailed := failed_of_reaches hreach
  rw [hhistory, happroved, hfault, hmembers, hworking, hfailed]
  refine ⟨?_, ?_, ?_, ?_⟩
  · intro before d after hsplit hd
    rcases recorded_of_reaches hreach with ⟨_, _, hclear⟩ | hcleared
    · exact absurd hd (hclear d (by rw [hsplit]; simp))
    · obtain ⟨before', d', hlast, _, _, hbefore⟩ := hcleared.last
      refine ⟨?_, hcleared.approved, ?_⟩
      · rcases List.eq_nil_or_concat after with hnil | ⟨after', x, hafter⟩
        · exact hnil
        · -- a turn before the last one did not clear anything
          rw [hlast, hafter, List.concat_eq_append, ← List.cons_append,
            ← List.append_assoc] at hsplit
          have hmem : d ∈ before' := by rw [(List.append_inj' hsplit rfl).1]; simp
          exact absurd hd (hbefore d hmem)
      · rw [WorkingSet.restoreAll_of_pocket hcleared.pocket, hcleared.surrogates]
  · intro hclear
    rcases recorded_of_reaches hreach with ⟨hgoing, _, _⟩ | hcleared
    · -- nothing was cleared, so the queue is what was approved, with at most one block in it
      cases hgoing with
      | kept hresets _ hqueue => exact .inl ⟨hresets, hqueue⟩
      | restored before d after ids hsplit hd hbefore _ hqueue =>
        exact .inr ⟨before, d, after, ids, hsplit, hd, hbefore, hqueue⟩
    · obtain ⟨before, d, hlast, hd, _⟩ := hcleared.last
      exact absurd hd (hclear d (by rw [hlast]; simp))
  · simp
  · -- a fault clears everything, so only the last turn can have one
    rcases recorded_of_reaches hreach with ⟨_, hnone, hclear⟩ | hcleared
    · rw [hnone]
      cases hd : q.history.getLast? with
      | none => rfl
      | some d => exact (Dispatch.fault?_eq_none (hclear d (List.mem_of_getLast? hd))).symm
    · obtain ⟨before, d, hlast, _, hd, _⟩ := hcleared.last
      rw [hlast, List.getLast?_append_cons, hd]
      rfl

/-- Two blocks beside each other. -/
def blocks : Scene Float :=
  { entities := .ofList [(1, Entity.new 1 .model (.splat 1)),
      (2, { Entity.new 2 .model (.splat 1) with position := ⟨5, 0, 0⟩ })] }

/-- Heights from 1 to 3 are allowed, and nothing else is looked at. -/
def heightLimits : Validator Float Unit :=
  { routing := { bindings :=
      [⟨[.changeProperty], none, ⟨[.propertyRange [⟨⟨"shape", "height"⟩, 1, 3⟩]]⟩⟩] }
    config := .standard }

/-- The first block is moved, then made too high, and the second one is moved. -/
def tooHigh : Command Float :=
  .composite { id := 1 } "rebuild"
    [.single { id := 2 } (.move 1 (.splat 0) ⟨0, 0, 9⟩),
      .single { id := 3 } (.changeProperty 1 ⟨"shape", "height"⟩ (.int 1) (.int 4)),
      .single { id := 4 } (.move 2 ⟨5, 0, 0⟩ ⟨5, 0, 9⟩)]

/-- The second command is rejected: executed are the first,
the reset block and the third, in this order. -/
theorem executed_exactly_tooHigh : ∃ result : Validation Float Unit,
    heightLimits.checks tooHigh = true ∧
    heightLimits.validate 3 blocks .fresh {} () tooHigh = some result ∧
    result.history.map Dispatch.action? = [none, some .clearCurrent, none] ∧
    ∃ before d after ids, result.history = before ++ d :: after ∧ d.resets = true ∧
      (∀ x ∈ before, x.resets = false) ∧ result.outcome.command.members =
        before.filterMap Dispatch.approval? ++ (tooHigh.resetBlock ids).1 ++
          after.filterMap Dispatch.approval? := by
  -- the run itself by evaluation; the theorem then gives the shape of the queue
  have hactions : ((heightLimits.validate 3 blocks .fresh {} () tooHigh).map fun r =>
      r.history.map Dispatch.action?) = some [none, some .clearCurrent, none] := by decide +kernel
  obtain ⟨result, h, hactions⟩ := Option.map_eq_some_iff.1 hactions
  obtain ⟨_, hkept, _, _⟩ := executed_exactly (by rfl) h
  have hmem : ∀ d ∈ result.history, d.action? ∈ [none, some .clearCurrent, none] := fun d hd => by
    rw [← hactions]
    exact List.mem_map_of_mem hd
  refine ⟨result, rfl, h, hactions, (hkept fun d hd hclear => ?_).resolve_left fun hnone => ?_⟩
  · have hone := hmem d hd
    rw [hclear] at hone
    exact absurd hone (by decide)
  · -- the second of the turns has the scene restored
    have hresets : result.history.map Dispatch.resets = [false, true, false] := by
      have hcomp : Dispatch.resets (α := Float) = (·.any (·.resetsScene)) ∘ Dispatch.action? := rfl
      rw [hcomp, ← List.map_map, hactions]
      rfl
    have hfalse : ∀ b ∈ result.history.map Dispatch.resets, b = false := by simpa using hnone.1
    rw [hresets] at hfalse
    exact absurd (hfalse true (by simp)) (by decide)

end Validator

end SceneGuard
