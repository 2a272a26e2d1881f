import SceneGuard.Pass.Basic
import SceneGuard.Proofs.Speculation.Staging

/-!
# Steps of a pass

A pass is a run of turns (`Validator.Reaches`). Each turn ends in one of three ways, told by the
verdict it comes to: the command is approved, it is rejected, or it is at fault (`settle_approved`,
`settle_rejected`, `settle_fault`). Main statements:

* `reaches_of_run` — what a run returns is reached by turns and has nothing pending;
* `Reaches.invariant` — what the start has and every turn keeps, every pass reached has;
* `Reaches.invariant_unfailed` — the same for passes without a rejection, where only approving turns
  have to be looked at;
* `approving_turn` — what an approving turn does.
-/

namespace SceneGuard

variable {α μ : Type}

/-! ## What rolling back and settling leave -/

namespace Pass

variable (p : Pass α μ) (edit : Command α)

/-- Several commands are approved in order, behind the others. -/
theorem approved_foldl_addApproved (block : List (Command α)) (q : Queues α) :
    block.foldl Queues.addApproved q = { q with approved := q.approved ++ block } := by
  induction block generalizing q with
  | nil => simp
  | cons c block ih =>
    rw [List.foldl_cons, ih]
    simp [Queues.addApproved]

theorem issued_foldl_issue (cs : List (Command α)) (q : Queues α) :
    cs.foldl Queues.issue q = { q with issued := q.issued ++ cs } := by
  induction cs generalizing q with
  | nil => simp
  | cons c cs ih =>
    rw [List.foldl_cons, ih]
    simp [Queues.issue]

theorem pending_foldl_addPending (cs : List (Command α)) (q : Queues α) :
    cs.foldl Queues.addPending q = { q with pending := q.pending ++ cs } := by
  induction cs generalizing q with
  | nil => simp
  | cons c cs ih =>
    rw [List.foldl_cons, ih]
    simp [Queues.addPending]

/-- The pass without what a rejection discards. -/
def discarded (action : FailureAction) (p : Pass α μ) : Pass α μ :=
  match action with
  | .clearAll =>
    { p with
      session := { working := p.session.working.restoreAll.clear, queues := {} }
      resetIssued := false
      failed := true }
  | .clearCurrent | .clearCurrentNoReset =>
    { p with session := { p.session with queues := p.session.queues.splice }, failed := true }
  | .clearNewlyIssued =>
    { p with session := { p.session with queues := p.session.queues.clearIssued }, failed := true }

/-- The pass with the reset block of an edit behind what is approved. -/
def resetInLine (edit : Command α) (p : Pass α μ) : Pass α μ :=
  { p with
    session := { p.session with
      queues := { p.session.queues with
        approved := p.session.queues.approved ++ (edit.resetBlock p.ids).1 } }
    ids := (edit.resetBlock p.ids).2
    resetIssued := true }

/-- A rejection discards, and has the reset block put in line if it is not there. -/
theorem rollBack_eq (edit : Command α) (action : FailureAction) (p : Pass α μ) :
    p.rollBack edit action =
      if action.resetsScene && !(p.discarded action).resetIssued then
        (p.discarded action).resetInLine edit
      else p.discarded action := by
  unfold rollBack resetInLine
  cases action <;> simp only [approved_foldl_addApproved] <;> rfl

@[simp] theorem failed_discarded (action : FailureAction) (p : Pass α μ) :
    (p.discarded action).failed = true := by
  cases action <;> rfl

@[simp] theorem failed_rollBack (edit : Command α) (action : FailureAction) (p : Pass α μ) :
    (p.rollBack edit action).failed = true := by
  rw [rollBack_eq]
  split
  · exact failed_discarded action p
  · exact failed_discarded action p

/-- An approving turn: its command is executed, and what was issued in it will have its turn. -/
theorem settle_approved {d : Dispatch α} {r : Verdict α} (hd : d.verdict = .ok r)
    (hr : r.approved = true) :
    p.settle edit d = { p with
      session := { p.session with queues := (p.session.queues.addApproved d.left).splice }
      severity := p.severity.raise r.severity
      notes := p.notes ++ r.notes
      history := p.history ++ [d] } := by
  unfold settle
  rw [hd]
  simp [hr]

/-- A rejecting turn ends as its failure action says. -/
theorem settle_rejected {d : Dispatch α} {r : Verdict α} (hd : d.verdict = .ok r)
    (hr : r.approved = false) :
    ∃ severity notes, p.settle edit d = { rollBack edit r.failureAction
      { p with severity, history := p.history ++ [d] } with notes } := by
  unfold settle
  rw [hd]
  simp only [hr, Bool.false_eq_true, if_false]
  exact ⟨_, _, rfl⟩

/-- A turn at fault clears everything, whatever its rules say about failure. -/
theorem settle_fault {d : Dispatch α} {f : Fault α} (hd : d.verdict = .error f) :
    ∃ severity notes fault, p.settle edit d = rollBack edit .clearAll
      { p with severity, notes, fault, history := p.history ++ [d] } := by
  unfold settle
  rw [hd]
  exact ⟨_, _, _, rfl⟩

theorem pocket_discarded (action : FailureAction) (h : p.session.working.pocket = .empty) :
    (p.discarded action).session.working.pocket = .empty := by
  cases action with
  | clearAll => exact WorkingSet.pocket_restoreAll p.session.working
  | clearCurrent | clearCurrentNoReset | clearNewlyIssued => exact h

theorem pocket_rollBack (action : FailureAction) (h : p.session.working.pocket = .empty) :
    (p.rollBack edit action).session.working.pocket = .empty := by
  have hdiscarded := pocket_discarded p action h
  rw [rollBack_eq]
  split <;> exact hdiscarded

theorem pocket_settle (d : Dispatch α) (h : p.session.working.pocket = .empty) :
    (p.settle edit d).session.working.pocket = .empty := by
  cases hd : d.verdict with
  | error f =>
    obtain ⟨_, _, _, hs⟩ := settle_fault p edit hd
    rw [hs]
    exact pocket_rollBack _ edit _ h
  | ok r =>
    cases hr : r.approved with
    | true =>
      rw [settle_approved p edit hd hr]
      exact h
    | false =>
      obtain ⟨_, _, hs⟩ := settle_rejected p edit hd hr
      rw [hs]
      exact pocket_rollBack _ edit _ h

end Pass

/-!
## Runs of turns

What the start has and one turn keeps holds at every point of a pass (`Reaches.invariant`). Most of
what is said of passes is said in this way.
-/

namespace Validator

variable [Scalar α] {v : Validator α μ} {scene : Scene α} {edit : Command α} {p p' q : Pass α μ}

/-- The pass `q` is reached from `p` by turns. -/
inductive Reaches (v : Validator α μ) (scene : Scene α) (edit : Command α) (p : Pass α μ) :
    Pass α μ → Prop where
  | refl : Reaches v scene edit p p
  | step {q q' : Pass α μ} (hreach : Reaches v scene edit p q)
      (hstep : v.step? scene edit q = some q') :
      Reaches v scene edit p q'

/-- What is reached from the next pass is reached from this one. -/
theorem Reaches.head (hstep : v.step? scene edit p = some p') (h : v.Reaches scene edit p' q) :
    v.Reaches scene edit p q := by
  induction h with
  | refl => exact .step .refl hstep
  | step _ hlast ih => exact .step ih hlast

/-- What the first pass has and every turn keeps, every pass reached has. -/
theorem Reaches.invariant {P : Pass α μ → Prop} (h : v.Reaches scene edit p q) (h0 : P p)
    (hstep : ∀ a b, P a → v.step? scene edit a = some b → P b) : P q := by
  induction h with
  | refl => exact h0
  | step _ hlast ih => exact hstep _ _ ih hlast

/-- No turn is left when nothing is in line. -/
theorem step?_eq_none : v.step? scene edit p = none ↔ p.session.queues.pending = [] := by
  unfold step? Queues.next?
  cases p.session.queues.pending <;> simp

/-- A run takes turns until nothing is pending. -/
theorem reaches_of_run {budget : Nat} (h : v.run scene edit budget p = some q) :
    v.Reaches scene edit p q ∧ q.session.queues.pending = [] := by
  -- on the budget, one step at a time
  induction budget generalizing p with
  | zero =>
    unfold run at h
    split at h
    · next hempty =>
      cases h
      exact ⟨.refl, List.isEmpty_iff.1 hempty⟩
    · cases h
  | succ budget ih =>
    unfold run at h
    cases hs : v.step? scene edit p with
    | none =>
      rw [hs] at h
      cases h
      exact ⟨.refl, step?_eq_none.1 hs⟩
    | some p' =>
      rw [hs] at h
      obtain ⟨hreach, hempty⟩ := ih h
      exact ⟨hreach.head hs, hempty⟩

/-- With one unit of the budget left for it, a turn is taken. -/
theorem run_of_step? (budget : Nat) (h : v.step? scene edit p = some p') :
    v.run scene edit (budget + 1) p = v.run scene edit budget p' := by
  rw [run, h]

/-- With nothing in line a pass is at its end, whatever the budget. -/
theorem run_of_pending {budget : Nat} (h : p.session.queues.pending = []) :
    v.run scene edit budget p = some p := by
  cases budget with
  | zero => rw [run, h]; rfl
  | succ budget => rw [run, step?_eq_none.2 h]

/-- A turn more than a run needs does not matter. -/
theorem run_succ {budget : Nat} (h : v.run scene edit budget p = some q) :
    v.run scene edit (budget + 1) p = some q := by
  induction budget generalizing p with
  | zero =>
    -- a run without budget had nothing left to do
    obtain ⟨hreach, hpending⟩ := reaches_of_run h
    unfold run at h
    split at h
    · next hempty =>
      cases h
      exact run_of_pending hpending
    · cases h
  | succ budget ih =>
    rw [run] at h ⊢
    cases hs : v.step? scene edit p with
    | none => rwa [hs] at h
    | some p' => rw [hs] at h; exact ih h

/-!
## One turn

A turn is cut into its parts, each under a name of its own: the trial, the trial after the rules,
what it comes to, and the record of that.
-/

/-- The trial a command is put on when its turn comes. -/
def trial (p : Pass α μ) (c : Command α) : Trial α μ :=
  { command := c, changes := { working := p.session.working }, ids := p.ids, memory := p.memory }

/-- The trial of a command after its rules. -/
def tried (v : Validator α μ) (scene : Scene α) (p : Pass α μ) (c : Command α) : Trial α μ :=
  (v.judge scene (trial p c)).1

/-- The working set and the verdict that the turn of a command comes to. -/
def concluded (v : Validator α μ) (scene : Scene α) (p : Pass α μ) (c : Command α) :
    WorkingSet α × Except (Fault α) (Verdict α) :=
  conclude scene (v.tried scene p c) (v.judge scene (trial p c)).2

/-- The record of a turn. -/
def turn (v : Validator α μ) (scene : Scene α) (p : Pass α μ) (c : Command α) : Dispatch α :=
  { given := c
    left := (v.tried scene p c).command
    issued := (v.tried scene p c).issued
    verdict := (v.concluded scene p c).2 }

/-- The pass in which the command has had its rules, and `rest` is still pending. -/
def judged (v : Validator α μ) (scene : Scene α) (p : Pass α μ) (c : Command α)
    (rest : List (Command α)) : Pass α μ :=
  { p with
    session :=
      { working := (v.concluded scene p c).1
        queues := { p.session.queues with
          pending := rest
          issued := p.session.queues.issued ++ (v.tried scene p c).issued } }
    ids := (v.tried scene p c).ids
    memory := (v.tried scene p c).memory }

/-- A turn takes the first in line, hears its rules, and ends as the verdict says. -/
theorem step?_eq_some : v.step? scene edit p = some p' ↔
    ∃ c rest, p.session.queues.pending = c :: rest ∧
      p' = (v.judged scene p c rest).settle edit (v.turn scene p c) := by
  unfold step? Queues.next?
  cases hp : p.session.queues.pending with
  | nil => simp
  | cons c rest =>
    simp only [Pass.issued_foldl_issue, Option.some.injEq, List.cons.injEq]
    constructor
    · rintro rfl
      exact ⟨c, rest, ⟨rfl, rfl⟩, rfl⟩
    · rintro ⟨c', rest', ⟨rfl, rfl⟩, rfl⟩
      rfl

omit [Scalar α] in
/-- At the start the single commands of the edit are in line, and nothing else. -/
theorem queues_start (v : Validator α μ) (session : Session α) (ids : IdSource) (memory : μ)
    (edit : Command α) : (v.start session ids memory edit).session.queues =
      { pending := edit.leaves } := by
  show edit.leaves.foldl Queues.addPending _ = _
  rw [Pass.pending_foldl_addPending]
  rfl

/-!
## Passes without a rejection

A pass in which something was rejected stays one. So if it is not, every turn on the way to it was
an approval.
-/

theorem failed_step? (h : v.step? scene edit p = some p') (hf : p.failed = true) :
    p'.failed = true := by
  obtain ⟨c, rest, _, rfl⟩ := step?_eq_some.1 h
  cases hv : (v.turn scene p c).verdict with
  | error f =>
    obtain ⟨_, _, _, hs⟩ := Pass.settle_fault (v.judged scene p c rest) edit hv
    rw [hs, Pass.failed_rollBack]
  | ok r =>
    cases hr : r.approved with
    | true =>
      rw [Pass.settle_approved _ _ hv hr]
      exact hf
    | false =>
      obtain ⟨_, _, hs⟩ := Pass.settle_rejected (v.judged scene p c rest) edit hv hr
      rw [hs]
      exact Pass.failed_rollBack _ _ _

/-- Turns that lead to a pass without a rejection had none on the way. -/
theorem Reaches.invariant_unfailed {P : Pass α μ → Prop} (h : v.Reaches scene edit p q) (h0 : P p)
    (hq : q.failed = false)
    (hstep : ∀ a b, P a → v.step? scene edit a = some b → b.failed = false → P b) : P q := by
  induction h with
  | refl => exact h0
  | step hreach hlast ih =>
    refine hstep _ _ (ih ?_) hlast hq
    cases hf : Pass.failed _ with
    | false => rfl
    | true => exact absurd (failed_step? hlast hf) (by simp [hq])

/-- The conclusion of a trial that rejects: what was staged goes. -/
theorem conclude_rejected {t : Trial α μ} {verdict : Except (Fault α) (Verdict α)}
    {w : WorkingSet α} {r : Verdict α} (h : conclude scene t verdict = (w, .ok r))
    (hr : r.approved = false) : w = t.changes.drop := by
  unfold conclude at h
  cases verdict with
  | error f => simp at h
  | ok r' =>
    simp only at h
    split at h
    · next hr' =>
      cases hs : t.changes.working.surrogateFor scene t.command with
      | error f => simp [hs] at h
      | ok made => cases made <;> simp only [hs, Prod.mk.injEq, Except.ok.injEq] at h <;> simp_all
    · exact (Prod.ext_iff.1 h).1.symm

/-- The conclusion of a trial at fault: what was staged goes too. -/
theorem conclude_fault {t : Trial α μ} {verdict : Except (Fault α) (Verdict α)} {w : WorkingSet α}
    {f : Fault α} (h : conclude scene t verdict = (w, .error f)) : w = t.changes.drop := by
  unfold conclude at h
  cases verdict with
  | error f => exact (Prod.ext_iff.1 h).1.symm
  | ok r =>
    simp only at h
    split at h
    · cases hs : t.changes.working.surrogateFor scene t.command with
      | error f =>
        rw [hs] at h
        exact (Prod.ext_iff.1 h).1.symm
      | ok made => cases made <;> simp [hs] at h
    · simp at h

/-- A trial that comes to a verdict had it from its rules. -/
theorem conclude_eq_ok {t : Trial α μ} {verdict : Except (Fault α) (Verdict α)} {w : WorkingSet α}
    {r : Verdict α} (h : conclude scene t verdict = (w, .ok r)) : verdict = .ok r := by
  unfold conclude at h
  cases verdict with
  | error f => simp at h
  | ok r' =>
    simp only at h
    split at h
    · cases hs : t.changes.working.surrogateFor scene t.command with
      | error f => simp [hs] at h
      | ok made => cases made <;> simp only [hs, Prod.mk.injEq, Except.ok.injEq] at h <;> rw [h.2]
    · rw [(Prod.mk.injEq ..).mp h |>.2]

/-- And if it approves, the effect of the command could be computed and is in the working set. -/
theorem conclude_approved {t : Trial α μ} {verdict : Except (Fault α) (Verdict α)}
    {w : WorkingSet α} {r : Verdict α} (h : conclude scene t verdict = (w, .ok r))
    (hr : r.approved = true) :
    verdict = .ok r ∧ ∃ made, t.changes.working.surrogateFor scene t.command = .ok made ∧
      w = (t.changes.stageIfAny made).keep := by
  unfold conclude at h
  cases verdict with
  | error f => simp at h
  | ok r' =>
    simp only at h
    split at h
    · -- approved by the rules, and then the effect on the entity is computed
      cases hs : t.changes.working.surrogateFor scene t.command with
      | error f => simp [hs] at h
      | ok made =>
        cases made with
        | none =>
          simp only [hs, Prod.mk.injEq, Except.ok.injEq] at h
          exact ⟨by rw [h.2], none, rfl, h.1.symm⟩
        | some s =>
          simp only [hs, Prod.mk.injEq, Except.ok.injEq] at h
          exact ⟨by rw [h.2], some s, rfl, h.1.symm⟩
    · next hr' =>
      simp only [Prod.mk.injEq, Except.ok.injEq] at h
      rw [h.2] at hr'
      exact absurd hr hr'

/-- A verdict that a turn comes to is that of the rules. -/
theorem judge_of_verdict {c : Command α} {r : Verdict α} (h : (v.turn scene p c).verdict = .ok r) :
    (v.judge scene (trial p c)).2 = .ok r :=
  conclude_eq_ok (w := (v.concluded scene p c).1) (Prod.ext rfl h)

/-- An approval by the rules stands when the effect of the command can be computed. -/
theorem verdict_of_surrogateFor {c : Command α} {r : Verdict α} {made : Option (Surrogate α)}
    (hr : (v.judge scene (trial p c)).2 = .ok r) (happroved : r.approved = true)
    (hmade : (v.tried scene p c).changes.working.surrogateFor scene (v.tried scene p c).command =
      .ok made) :
    (v.turn scene p c).verdict = .ok r := by
  show (conclude scene (v.tried scene p c) (v.judge scene (trial p c)).2).2 = _
  rw [hr]
  unfold conclude
  simp only [happroved, if_true, hmade]
  cases made <;> rfl

/-!
## The working set between turns

In a turn a transaction keeps snapshots of what is staged over. They are used up at its end, and so
nothing is on trial when the next turn starts.
-/

omit [Scalar α] in
/-- Whatever rules run, they change the working set by staging. -/
theorem since_run {w : WorkingSet α} {config : Config α} {rules : List (Rule α μ)}
    {t t' : Trial α μ} {r : Verdict α} {verdict : Except (Fault α) (Verdict α)}
    (hw : Transaction.Since w t.changes)
    (h : Checklist.run scene config rules t r = (t', verdict)) :
    Transaction.Since w t'.changes := by
  -- on the rules; what each stages is staged since the same start
  induction rules generalizing t r with
  | nil =>
    cases h
    exact hw
  | cons rule rules ih =>
    unfold Checklist.run at h
    generalize rule.process ⟨scene, t.changes.working, config⟩ t.ids t.memory t.command r = a at h
    have ha : Transaction.Since w (t.absorb a).changes := hw.stageAll a.staged
    simp only at h
    split at h
    · cases h
      exact ha
    · exact ih ha h

omit [Scalar α] in
/-- In a turn the transaction remembers where the working set stood. -/
theorem since_tried (hpocket : p.session.working.pocket = .empty) (c : Command α) :
    Transaction.Since p.session.working (v.tried scene p c).changes := by
  have hstart : Transaction.Since p.session.working (trial p c).changes :=
    Transaction.since_start hpocket
  unfold tried judge
  split
  · exact since_run hstart rfl
  · exact hstart

/-- What a turn staged goes, unless the command is approved. -/
theorem working_concluded (hpocket : p.session.working.pocket = .empty) {c : Command α}
    (h : ∀ r, (v.turn scene p c).verdict = .ok r → r.approved = false) :
    (v.concluded scene p c).1 = p.session.working := by
  have hdrop : (v.tried scene p c).changes.drop = p.session.working :=
    (since_tried hpocket c).drop_eq hpocket
  refine Eq.trans ?_ hdrop
  cases hr : (v.turn scene p c).verdict with
  | ok r => exact conclude_rejected (Prod.ext rfl hr) (h r hr)
  | error f => exact conclude_fault (Prod.ext rfl hr)

/-- Between turns nothing is on trial. -/
theorem pocket_step? (hpocket : p.session.working.pocket = .empty)
    (h : v.step? scene edit p = some p') : p'.session.working.pocket = .empty := by
  obtain ⟨c, rest, _, rfl⟩ := step?_eq_some.1 h
  refine Pass.pocket_settle (v.judged scene p c rest) edit _ ?_
  show (v.concluded scene p c).1.pocket = .empty
  by_cases happroved : ∃ r, (v.turn scene p c).verdict = .ok r ∧ r.approved = true
  · obtain ⟨r, hr, happroved⟩ := happroved
    obtain ⟨_, made, _, hworking⟩ := conclude_approved (w := (v.concluded scene p c).1)
      (Prod.ext rfl hr) happroved
    rw [hworking]
    exact ((since_tried hpocket c).stageIfAny made).keep_pocket
  · rw [working_concluded hpocket fun r hr => by simpa using fun h => happroved ⟨r, hr, h⟩]
    exact hpocket

/-- A turn after which nothing is rejected approves its command. -/
theorem step?_unfailed (h : v.step? scene edit p = some p') (hf : p'.failed = false) :
    ∃ c rest r, p.session.queues.pending = c :: rest ∧ (v.turn scene p c).verdict = .ok r ∧
      r.approved = true ∧ p' = (v.judged scene p c rest).settle edit (v.turn scene p c) := by
  obtain ⟨c, rest, hpending, rfl⟩ := step?_eq_some.1 h
  cases hv : (v.turn scene p c).verdict with
  | error f =>
    obtain ⟨_, _, _, hs⟩ := Pass.settle_fault (v.judged scene p c rest) edit hv
    rw [hs, Pass.failed_rollBack] at hf
    cases hf
  | ok r =>
    cases hr : r.approved with
    | false =>
      obtain ⟨_, _, hs⟩ := Pass.settle_rejected (v.judged scene p c rest) edit hv hr
      rw [hs] at hf
      exact absurd (Pass.failed_rollBack _ _ _) (by rw [hf]; decide)
    | true => exact ⟨c, rest, r, hpending, hv, hr, rfl⟩

/--
What an approving turn does: the rules said so, the effect of the command on its entity is in the
working set, and the command is last in the approved queue.
-/
theorem approving_turn (edit : Command α) {c : Command α} (rest : List (Command α)) {r : Verdict α}
    (hr : (v.turn scene p c).verdict = .ok r) (happroved : r.approved = true) :
    (v.judge scene (trial p c)).2 = .ok r ∧ ∃ made,
      (v.tried scene p c).changes.working.surrogateFor scene (v.tried scene p c).command =
        .ok made ∧
      ((v.judged scene p c rest).settle edit (v.turn scene p c)).session =
        { working := ((v.tried scene p c).changes.stageIfAny made).keep
          queues :=
            { pending := rest ++ (p.session.queues.issued ++ (v.tried scene p c).issued)
              approved := p.session.queues.approved ++ [(v.tried scene p c).command]
              issued := [] } } := by
  obtain ⟨hjudge, made, hmade, hworking⟩ := conclude_approved (w := (v.concluded scene p c).1)
    (Prod.ext rfl hr) happroved
  refine ⟨hjudge, made, hmade, ?_⟩
  rw [Pass.settle_approved _ _ hr happroved, ← hworking]
  rfl

/-- A turn in which no rule says anything puts the command in line,
and its effect into the working set. -/
theorem step?_of_judge (edit : Command α) {c : Command α} {rest : List (Command α)}
    (hpending : p.session.queues.pending = c :: rest)
    (hjudge : v.judge scene (trial p c) = (trial p c, .ok .approval)) {made : Option (Surrogate α)}
    (hmade : p.session.working.surrogateFor scene c = .ok made) :
    ∃ p', v.step? scene edit p = some p' ∧ p'.failed = p.failed ∧ p'.session =
      { working := (Transaction.stageIfAny { working := p.session.working } made).keep
        queues :=
          { pending := rest ++ p.session.queues.issued
            approved := p.session.queues.approved ++ [c]
            issued := [] } } := by
  have htried : v.tried scene p c = trial p c := congrArg Prod.fst hjudge
  have hverdict : (v.turn scene p c).verdict = .ok .approval :=
    verdict_of_surrogateFor (congrArg Prod.snd hjudge) rfl (by rw [htried]; exact hmade)
  obtain ⟨_, made', hmade', hsession⟩ := approving_turn edit rest hverdict rfl
  rw [htried] at hmade' hsession
  -- the turn computes the effect once more and finds the same
  obtain rfl : made = made' := Except.ok.inj (hmade.symm.trans hmade')
  refine ⟨_, step?_eq_some.2 ⟨c, rest, hpending, rfl⟩, ?_, hsession.trans ?_⟩
  · rw [Pass.settle_approved _ _ hverdict rfl]
    rfl
  · have hissued : (trial p c).issued = [] := rfl
    rw [hissued, List.append_nil]
    rfl

/-! ## Validations -/

/-- A checked edit is validated by a pass that comes to an end;
its outcome is what was approved in it. -/
theorem validate_eq_some {budget : Nat} {session : Session α} {ids : IdSource} {memory : μ}
    {result : Validation α μ} (hchecks : v.checks edit = true)
    (h : v.validate budget scene session ids memory edit = some result) :
    ∃ q header description, v.Reaches scene edit (v.start session ids memory edit) q ∧
      q.session.queues.pending = [] ∧ result.outcome.approved = !q.failed ∧
      result.outcome.command = .composite header description q.session.queues.approved := by
  unfold validate at h
  rw [hchecks] at h
  obtain ⟨q, hrun, rfl⟩ := Option.map_eq_some_iff.1 h
  obtain ⟨hreach, hpending⟩ := reaches_of_run hrun
  exact ⟨q, _, _, hreach, hpending, rfl, rfl⟩

/-- The validation of a checked edit is what the pass over it leaves. -/
theorem pass_of_validate {budget : Nat} {session : Session α} {ids : IdSource} {memory : μ}
    {result : Validation α μ} (hchecks : v.checks edit = true)
    (h : v.validate budget scene session ids memory edit = some result) :
    ∃ q, v.Reaches scene edit (v.start session ids memory edit) q ∧ q.session.queues.pending = [] ∧
      result.history = q.history ∧ result.outcome.approved = !q.failed ∧
        result.outcome.fault = q.fault ∧
      result.outcome.command.members = q.session.queues.approved ∧
      result.session.working = q.session.working.restoreAll := by
  unfold validate at h
  rw [hchecks] at h
  obtain ⟨q, hrun, rfl⟩ := Option.map_eq_some_iff.1 h
  obtain ⟨hreach, hpending⟩ := reaches_of_run hrun
  exact ⟨q, hreach, hpending, rfl, rfl, rfl, rfl, rfl⟩

/-- A pass that comes to its end makes a result of what it has come to. -/
theorem validate_of_run {budget : Nat} {session : Session α} {ids : IdSource} {memory : μ}
    (hchecks : v.checks edit = true)
    (hrun : v.run scene edit budget (v.start session ids memory edit) = some q) :
    ∃ result header description, v.validate budget scene session ids memory edit = some result ∧
      result.outcome.approved = !q.failed ∧
      result.outcome.command = .composite header description q.session.queues.approved := by
  unfold validate
  rw [hchecks, hrun]
  exact ⟨_, _, _, rfl, rfl, rfl⟩

end Validator

end SceneGuard
