import SceneGuard.Proofs.Pass.Hearings
import SceneGuard.Proofs.Scene.Flags
import SceneGuard.Proofs.Speculation.Application

/-!
# Forced composites

No rule is asked about an edit that is forced, or about a single command that is. A forced composite
in an edit that is not forced is taken apart, and its flag is lost: rules are asked about what is in
it, unless it is forced itself or there are no rules for it. Main statements:

* `run_congr` — a pass looks at the single commands of an edit and at its reset block only;
* `alike_run` — where no rules are asked, it makes no difference to a pass whether a command is
  forced;
* `forced_below` — inner flags make no difference, and where no rules are asked handing force down
  makes none.
-/

namespace SceneGuard

variable {α μ : Type}

/-- What is made of related things is the same, if it is for each pair. -/
theorem map_eq_of_rel {β γ : Type} {R : β → β → Prop} {f g : β → γ}
    (hfg : ∀ {a b}, R a b → g b = f a) {x y : Option β} (h : Option.Rel R x y) :
    y.map g = x.map f := by
  cases h with
  | some hab => exact congrArg some (hfg hab)
  | none => rfl

/-- The outcome, with nothing in its command forced. -/
def Outcome.unforced (o : Outcome α) : Outcome α := { o with command := o.command.unforced }

/-- Force does not bear on the surrogate that a command makes. -/
theorem WorkingSet.surrogateFor_force [Scalar α] (w : WorkingSet α) (scene : Scene α)
    (c : Command α) : w.surrogateFor scene c.force = w.surrogateFor scene c := by
  cases c with
  | single h e =>
    show w.surrogateFor scene (.single _ e) = _
    rw [surrogateFor_single, surrogateFor_single]
    rfl
  | composite h d ms => rfl

/-!
## What a pass looks at in an edit

A pass takes the single commands of the edit at its start. After that it needs the edit for one
thing only, which is its reset block.
-/

namespace Pass

variable {edit edit' : Command α}

/-- A rejection looks at nothing in the edit but its reset block. -/
theorem rollBack_congr (hblock : ∀ ids, edit'.resetBlock ids = edit.resetBlock ids)
    (a : FailureAction) (p : Pass α μ) : p.rollBack edit' a = p.rollBack edit a := by
  have hinLine : ∀ q : Pass α μ, q.resetInLine edit' = q.resetInLine edit := fun q => by
    unfold resetInLine
    rw [hblock]
  rw [rollBack_eq, rollBack_eq, hinLine]

theorem settle_congr (hblock : ∀ ids, edit'.resetBlock ids = edit.resetBlock ids) (p : Pass α μ)
    (d : Dispatch α) : p.settle edit' d = p.settle edit d := by
  unfold settle
  simp only [rollBack_congr hblock]

end Pass

namespace Validator

variable {v : Validator α μ} {scene : Scene α} {edit edit' c c' : Command α} {p q p' : Pass α μ}

theorem run_congr [Scalar α] (hblock : ∀ ids, edit'.resetBlock ids = edit.resetBlock ids)
    (budget : Nat) (p : Pass α μ) : v.run scene edit' budget p = v.run scene edit budget p := by
  induction budget generalizing p with
  | zero => rfl
  | succ budget ih =>
    cases hpending : p.session.queues.pending with
    | nil => rw [run_of_pending hpending, run_of_pending hpending]
    | cons c rest =>
      rw [run_of_step? budget (step?_eq_some.2 ⟨c, rest, hpending, rfl⟩),
        run_of_step? budget (step?_eq_some.2 ⟨c, rest, hpending, rfl⟩),
        Pass.settle_congr hblock, ih]

/-!
## Commands that no rules are asked about

No rules are asked about a command if it is forced, or if there is no checklist for it. The turn is
the same in both cases.
-/

/-- A command that no checklist is for is approved as it came. -/
theorem judge_of_unchecked (h : v.checklistFor? c = none) :
    v.judge scene (trial p c) = (trial p c, .ok .approval) := by
  unfold judge
  simp only [trial, h]

theorem hearings_of_unchecked (h : v.checklistFor? c = none) : v.hearings scene p c = [] := by
  unfold hearings
  simp only [h]

theorem tried_of_unchecked (h : v.checklistFor? c = none) : v.tried scene p c = trial p c :=
  congrArg Prod.fst (judge_of_unchecked h)

theorem checklistFor?_of_forced (h : c.header.forced = true) : v.checklistFor? c = none := by
  unfold checklistFor?
  rw [if_pos h]

theorem checklistFor?_of_routing (h : v.routing.checklistFor? c = none) :
    v.checklistFor? c = none := by
  unfold checklistFor?
  rw [h, ite_self]

/-- The second command is the first, or the first is forced in it and there are no rules for it. -/
def Frees (v : Validator α μ) (c c' : Command α) : Prop :=
  c' = c ∨ v.routing.checklistFor? c = none ∧ c' = c.force

theorem Frees.unforced (h : v.Frees c c') : c'.unforced = c.unforced := by
  rcases h with rfl | ⟨_, rfl⟩
  · rfl
  · exact Command.unforced_force c

theorem unforcedAll_of_frees {cs cs' : List (Command α)} (h : List.Forall₂ v.Frees cs cs') :
    Command.unforcedAll cs' = Command.unforcedAll cs := by
  induction h with
  | nil => rfl
  | cons hc _ ih => rw [Command.unforcedAll, Command.unforcedAll, hc.unforced, ih]

/-!
## Passes beside each other

The two passes take their turns side by side. What they have in line differs in force, and only
where no rules are asked anyway.
-/

/-- The second pass stands where the first does,
except that commands without rules may be forced in it. -/
structure Alike (v : Validator α μ) (p q : Pass α μ) : Prop where
  working : q.session.working = p.session.working
  pending : List.Forall₂ v.Frees p.session.queues.pending q.session.queues.pending
  approved : List.Forall₂ v.Frees p.session.queues.approved q.session.queues.approved
  issued : q.session.queues.issued = p.session.queues.issued
  ids : q.ids = p.ids
  memory : q.memory = p.memory
  severity : q.severity = p.severity
  failed : q.failed = p.failed
  notes : q.notes = p.notes
  fault : q.fault = p.fault
  resetIssued : q.resetIssued = p.resetIssued

theorem frees_refl (cs : List (Command α)) : List.Forall₂ v.Frees cs cs :=
  List.forall₂_same.2 fun _ _ => .inl rfl

namespace Alike

/-- Commands in line differ in force only, in front and behind. -/
theorem splice (h : v.Alike p q) :
    List.Forall₂ v.Frees (p.session.queues.pending ++ p.session.queues.issued)
      (q.session.queues.pending ++ q.session.queues.issued) := by
  rw [h.issued]
  exact List.rel_append h.pending (frees_refl _)

theorem discarded (h : v.Alike p q) (a : FailureAction) :
    v.Alike (p.discarded a) (q.discarded a) := by
  cases a with
  | clearAll =>
    have hworking : q.session.working.restoreAll.clear = p.session.working.restoreAll.clear := by
      rw [h.working]
    exact { h with
      working := hworking, pending := .nil, approved := .nil, issued := rfl, failed := rfl,
                   resetIssued := rfl }
  | clearCurrent | clearCurrentNoReset =>
    exact { h with pending := h.splice, issued := rfl, failed := rfl }
  | clearNewlyIssued => exact { h with issued := rfl, failed := rfl }

theorem rollBack (h : v.Alike p q) (edit : Command α) (a : FailureAction) :
    v.Alike (p.rollBack edit a) (q.rollBack edit a) := by
  have hd := h.discarded a
  rw [Pass.rollBack_eq, Pass.rollBack_eq, hd.resetIssued]
  split
  · refine { hd with approved := ?_, ids := ?_, resetIssued := rfl }
    · show List.Forall₂ v.Frees (_ ++ _) (_ ++ (edit.resetBlock (q.discarded a).ids).1)
      rw [hd.ids]
      exact List.rel_append hd.approved (frees_refl _)
    · show (edit.resetBlock (q.discarded a).ids).2 = (edit.resetBlock (p.discarded a).ids).2
      rw [hd.ids]
  · exact hd

theorem settle (h : v.Alike p q) (edit : Command α) {d d' : Dispatch α}
    (hverdict : d'.verdict = d.verdict) (hleft : v.Frees d.left d'.left) :
    v.Alike (p.settle edit d) (q.settle edit d') := by
  unfold Pass.settle
  rw [hverdict]
  -- the three ways a turn ends: a fault, an approval, a rejection
  cases d.verdict with
  | error f =>
    refine rollBack ?_ edit .clearAll
    have hnotes : q.notes ++ [Note.fault f] = p.notes ++ [Note.fault f] := by rw [h.notes]
    have hfault : (q.fault <|> some f) = (p.fault <|> some f) := by rw [h.fault]
    exact { h with severity := rfl, notes := hnotes, fault := hfault }
  | ok r =>
    have hseverity : q.severity.raise r.severity = p.severity.raise r.severity := by rw [h.severity]
    cases hr : r.approved with
    | true =>
      have happroved : List.Forall₂ v.Frees (p.session.queues.approved ++ [d.left])
          (q.session.queues.approved ++ [d'.left]) := List.rel_append h.approved (.cons hleft .nil)
      have hnotes : q.notes ++ r.notes = p.notes ++ r.notes := by rw [h.notes]
      simp only [hr, if_true]
      exact { h with
        pending := h.splice, approved := happroved, issued := rfl, severity := hseverity,
                     notes := hnotes }
    | false =>
      simp only [hr, Bool.false_eq_true, if_false]
      have hback :=
        rollBack
          (p := { p with severity := p.severity.raise r.severity, history := p.history ++ [d] })
            (q := { q with severity := q.severity.raise r.severity, history := q.history ++ [d'] })
        { h with severity := hseverity } edit r.failureAction
      exact { hback with notes := congrArg (· ++ r.notes) hback.notes }

end Alike

/-- A trial starts from the same in both. -/
theorem trial_of_alike (h : v.Alike p q) (c : Command α) : (trial q c : Trial α μ) = trial p c := by
  unfold trial
  rw [h.working, h.ids, h.memory]

variable [Scalar α]

/-- The turns of a command and of one that is freed come to the same. -/
theorem alike_turn (scene : Scene α) (h : v.Alike p q) (hc : v.Frees c c') :
    (v.concluded scene q c').1 = (v.concluded scene p c).1 ∧
      (v.turn scene q c').verdict = (v.turn scene p c).verdict ∧
      v.Frees (v.turn scene p c).left (v.turn scene q c').left ∧
      (v.tried scene q c').issued = (v.tried scene p c).issued ∧
      (v.tried scene q c').ids = (v.tried scene p c).ids ∧
      (v.tried scene q c').memory = (v.tried scene p c).memory := by
  rcases hc with rfl | ⟨hnone, rfl⟩
  · have htried : v.tried scene q c' = v.tried scene p c' := by unfold tried; rw [trial_of_alike h]
    have hconcluded : v.concluded scene q c' = v.concluded scene p c' := by
      unfold concluded
      rw [htried, trial_of_alike h]
    exact ⟨congrArg Prod.fst hconcluded, congrArg Prod.snd hconcluded,
      .inl (congrArg Trial.command htried), congrArg Trial.issued htried, congrArg Trial.ids htried,
      congrArg Trial.memory htried⟩
  · -- no rule is asked about either command, and their effects are the same
    have hc : v.checklistFor? c = none := checklistFor?_of_routing hnone
    have hforce : v.checklistFor? c.force = none := checklistFor?_of_forced (by cases c <;> rfl)
    have htried : v.tried scene p c = trial p c := tried_of_unchecked hc
    have htried' : v.tried scene q c.force = trial q c.force := tried_of_unchecked hforce
    have hconcluded : v.concluded scene q c.force = v.concluded scene p c := by
      unfold concluded
      rw [judge_of_unchecked hc, judge_of_unchecked hforce, htried, htried']
      unfold conclude
      simp only [trial, h.working, WorkingSet.surrogateFor_force]
    refine ⟨congrArg Prod.fst hconcluded, congrArg Prod.snd hconcluded, ?left, ?issued,
      ?ids, ?memory⟩
    case left =>
      show v.Frees (v.tried scene p c).command (v.tried scene q c.force).command
      rw [htried, htried']
      exact .inr ⟨hnone, rfl⟩
    case issued =>
      rw [htried, htried']
      rfl
    case ids =>
      rw [htried, htried']
      exact h.ids
    case memory =>
      rw [htried, htried']
      exact h.memory

/-- Where one pass takes a turn, the other one does. -/
theorem alike_step? (h : v.Alike p q) (hstep : v.step? scene edit p = some p') :
    ∃ q', v.step? scene edit q = some q' ∧ v.Alike p' q' := by
  obtain ⟨c, rest, hpending, rfl⟩ := step?_eq_some.1 hstep
  have hline := h.pending
  rw [hpending] at hline
  obtain ⟨c', rest', hc, hrest, hpending'⟩ := List.forall₂_cons_left_iff.1 hline
  obtain ⟨hworking, hverdict, hleft, hissued, hids, hmemory⟩ := alike_turn scene h hc
  have hqueue : q.session.queues.issued ++ (v.tried scene q c').issued =
      p.session.queues.issued ++ (v.tried scene p c).issued := by rw [h.issued, hissued]
  have hjudged : v.Alike (v.judged scene p c rest) (v.judged scene q c' rest') :=
    { h with
      working := hworking, pending := hrest, issued := hqueue, ids := hids, memory := hmemory }
  exact ⟨_, step?_eq_some.2 ⟨c', rest', hpending', rfl⟩, hjudged.settle edit hverdict hleft⟩

/-- Of two passes that stand alike both come to an end or none, and they end alike. -/
theorem alike_run {budget : Nat} (h : v.Alike p q) :
    Option.Rel v.Alike (v.run scene edit budget p) (v.run scene edit budget q) := by
  induction budget generalizing p q with
  | zero =>
    -- the two lines are equally long
    have hempty : q.session.queues.pending.isEmpty = p.session.queues.pending.isEmpty := by
      rw [Bool.eq_iff_iff, List.isEmpty_iff_length_eq_zero, List.isEmpty_iff_length_eq_zero,
        h.pending.length_eq]
    rw [run, run, hempty]
    split
    · exact .some h
    · exact .none
  | succ budget ih =>
    cases hstep : v.step? scene edit p with
    | none =>
      have hline := h.pending
      rw [step?_eq_none.1 hstep, List.forall₂_nil_left_iff] at hline
      rw [run_of_pending (step?_eq_none.1 hstep), run_of_pending hline]
      exact .some h
    | some p' =>
      obtain ⟨q', hstep', halike⟩ := alike_step? h hstep
      rw [run_of_step? budget hstep, run_of_step? budget hstep']
      exact ih halike

/-! ## Validations -/

omit [Scalar α] in
/-- In the end the outcomes differ in force only. -/
theorem outcome_of_alike (h : v.Alike p q) {edit' : Command α} (hlabel : edit'.label = edit.label) :
    ((q.outcome edit').1.unforced, (q.outcome edit').2) = ((p.outcome edit).1.unforced,
      (p.outcome edit).2) := by
  unfold Pass.outcome Outcome.unforced Command.group
  rw [h.ids, h.failed, h.severity, h.notes, h.fault, hlabel]
  simp only [Command.withHeader, Command.header, Command.unforced, unforcedAll_of_frees h.approved]

/-- Validations whose passes start alike come to the same. -/
theorem validate_of_alike {edit' : Command α} {budget : Nat} {session : Session α}
    {ids : IdSource} {memory : μ} (hchecks : v.checks edit' = v.checks edit)
    (hunforced : edit'.unforced = edit.unforced)
    (h : v.Alike (v.start session ids memory edit) (v.start session ids memory edit')) :
    (v.validate budget scene session ids memory edit').map
      (fun result => (result.outcome.unforced, result.ids)) =
      (v.validate budget scene session ids memory edit).map fun result =>
        (result.outcome.unforced, result.ids) := by
  unfold validate
  rw [hchecks, run_congr (Command.resetBlock_congr hunforced)]
  split
  · simp [Outcome.unchecked, Outcome.unforced, hunforced]
  · rw [Option.map_map, Option.map_map]
    exact map_eq_of_rel (fun hab => outcome_of_alike hab (Command.label_congr hunforced))
      (alike_run h)

omit [Scalar α] in
/-- An edit with the force in it handed down starts a pass like the edit itself. -/
theorem alike_start
    (hfree : ∀ c ∈ edit.covered false, c.header.forced = true ∨ v.routing.checklistFor? c = none)
    (session : Session α) (ids : IdSource) (memory : μ) :
    v.Alike (v.start session ids memory edit)
      (v.start session ids memory (edit.handedDown false)) := by
  have hleaves : List.Forall₂ v.Frees edit.leaves (edit.handedDown false).leaves := by
    refine (Command.leaves_handedDown false edit).imp fun c c' hc => ?_
    rcases hc with rfl | ⟨hcovered, rfl⟩
    · exact .inl rfl
    · rcases hfree c hcovered with hforced | hnone
      · exact .inl (Command.force_of_forced hforced)
      · exact .inr ⟨hnone, rfl⟩
  refine ⟨rfl, ?_, ?_, ?_, rfl, rfl, rfl, rfl, rfl, rfl, rfl⟩ <;> simp only [queues_start]
  · exact hleaves
  · exact .nil

/--
**Inner force.** Whether a composite in a checked edit is forced makes no difference. So what is
under a forced composite is passed without a rule where it is forced itself, or where there are no
rules for it; and then the edit comes to the same as with the force handed down to it.
-/
theorem forced_below (hedit : edit.header.forced = false) (budget : Nat) (session : Session α)
    (ids : IdSource) (memory : μ) :
    (v.checks edit = true → ∀ edit' : Command α, edit'.header.forced = false →
      edit'.leaves = edit.leaves →
      edit'.unforced = edit.unforced →
      v.validate budget scene session ids memory edit' = v.validate budget scene session ids
        memory edit) ∧
    ((∀ c ∈ edit.covered false, c.header.forced = true ∨ v.routing.checklistFor? c = none) →
      (∀ turn ∈ v.transcript budget scene session ids memory edit, turn.1.given ∈
        edit.covered false →
        turn.2 = [] ∧ turn.1.left = turn.1.given ∧ turn.1.issued = [] ∧
          ∀ r, turn.1.verdict = .ok r → r = .approval) ∧
      (v.validate budget scene session ids memory (edit.handedDown false)).map
          (fun result => (result.outcome.unforced, result.ids)) =
        (v.validate budget scene session ids memory edit).map
          fun result => (result.outcome.unforced, result.ids)) := by
  refine ⟨fun hchecks edit' hedit' hleaves hunforced => ?_,
    fun hfree => ⟨fun turn hturn hcovered => ?_, ?_⟩⟩
  · -- the leaves and the reset block are all that the pass takes from the edit
    unfold validate
    have hchecks' : v.checks edit' = true := by
      unfold checks at hchecks ⊢
      rwa [hedit', ← hedit]
    have hstart : v.start session ids memory edit' = v.start session ids memory edit := by
      unfold start
      rw [hleaves]
    rw [hchecks, hchecks', hstart, run_congr (Command.resetBlock_congr hunforced)]
    unfold Pass.outcome
    rw [Command.label_congr hunforced]
    rfl
  · -- a covered command has no checklist, so its turn is the trial it began with
    obtain ⟨q, c, rest, _, _, rfl⟩ := turn_of_mem_proceedings hturn
    have hnone : v.checklistFor? c = none :=
      (hfree c hcovered).elim checklistFor?_of_forced checklistFor?_of_routing
    have htried : v.tried scene q c = trial q c := tried_of_unchecked hnone
    refine ⟨hearings_of_unchecked hnone, congrArg Trial.command htried,
      congrArg Trial.issued htried, fun r hr => ?_⟩
    have hjudge := judge_of_verdict hr
    rw [judge_of_unchecked hnone] at hjudge
    exact (Except.ok.inj hjudge).symm
  · refine validate_of_alike ?_ (Command.unforced_handedDown false edit)
      (alike_start hfree session ids memory)
    unfold checks
    rw [Command.forced_handedDown hedit, hedit]

/-- In a forced composite the first block is moved and, forced once more,
made too high; the second is made higher. -/
def partlyForced : Command Float :=
  .composite { id := 1 } "rebuild"
    [.composite { id := 2, forced := true } "first"
        [.composite { id := 3 } "away" [.single { id := 4 } (.move 1 (.splat 0) ⟨0, 0, 9⟩)],
          .single { id := 5, forced := true }
            (.changeProperty 1 ⟨"shape", "height"⟩ (.int 1) (.int 4))],
      .single { id := 6 } (.changeProperty 2 ⟨"shape", "height"⟩ (.int 1) (.int 2))]

/-- The height is out of range, and yet approved: force comes down to it from the composite. -/
theorem forced_below_partlyForced : partlyForced.header.forced = false ∧
    (∀ c ∈ partlyForced.covered false,
      c.header.forced = true ∨ heightLimits.routing.checklistFor? c = none) ∧
    (heightLimits.validate 3 blocks .fresh {} () partlyForced).any (·.outcome.approved) = true ∧
    (heightLimits.validate 3 blocks .fresh {} () (partlyForced.handedDown false)).map
        (fun result => (result.outcome.unforced, result.ids)) =
      (heightLimits.validate 3 blocks .fresh {} () partlyForced).map
        fun result => (result.outcome.unforced, result.ids) := by
  have hfree : ∀ c ∈ partlyForced.covered false,
      c.header.forced = true ∨ heightLimits.routing.checklistFor? c = none := by
    intro c hc
    simp only [partlyForced, Command.covered, Command.coveredAll, Bool.or_true,
      Bool.or_false, if_true, Bool.false_eq_true, if_false, List.append_nil, List.cons_append,
      List.nil_append, List.mem_cons, List.not_mem_nil, or_false] at hc
    rcases hc with rfl | rfl
    · exact .inr rfl
    · exact .inl rfl
  exact ⟨rfl, hfree, by decide +kernel, ((forced_below (by rfl) 3 .fresh {} ()).2 hfree).2⟩

/-- In a forced composite the first block is made too high. -/
def forcedTooHigh : Command Float :=
  .composite { id := 1 } "batch"
    [.composite { id := 2, forced := true } "forced"
      [.single { id := 3 } (.changeProperty 1 ⟨"shape", "height"⟩ (.int 1) (.int 4))]]

/-- The rule is asked about the change and rejects it. With the force handed down it is approved. -/
theorem not_forced_below : forcedTooHigh.header.forced = false ∧
    forcedTooHigh.covered false = forcedTooHigh.leaves ∧
    (heightLimits.transcript 64 blocks .fresh {} () forcedTooHigh).any
      (fun turn => !turn.2.isEmpty) = true ∧
    (heightLimits.validate 64 blocks .fresh {} () forcedTooHigh).any
      (fun r => !r.outcome.approved) = true ∧
    (heightLimits.validate 64 blocks .fresh {} () (forcedTooHigh.handedDown false)).any
      (·.outcome.approved) = true :=
  ⟨rfl, rfl, by decide +kernel, by decide +kernel, by decide +kernel⟩

end Validator

end SceneGuard
