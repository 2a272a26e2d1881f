import SceneGuard.Proofs.Pass.Order
import SceneGuard.Proofs.Speculation.Application

/-!
# Turns and passes kept apart

What a turn changes on trial is gone when its command is not approved, and of a pass nothing is left
in the next one. Main statements:

* `Checklist.run_eq_foldl` — all that rules do to a trial is what they answer;
* `Validator.mem_touched_tried` — a turn touches the entities that its rules staged;
* `Validator.get?_approving_turn` — an approving turn changes nothing else than those, and its own
  entity;
* `Validator.validate_fresh` — a validation does not depend on what the session was used for before;
* `Validator.leaves_no_trace` — the whole of it, for every turn of a pass.
-/

namespace SceneGuard

variable {α μ : Type}

/-!
## What rules stage

Rules change a trial by their answers and in no other way. So the entities that a turn touches can
be read off the answers.
-/

namespace Checklist

/-- What the rules answer, one after the other. A fault is the last answer. -/
def answers (scene : Scene α) (config : Config α) :
    List (Rule α μ) → Trial α μ → Verdict α → List (RuleAnswer α μ)
  | [], _, _ => []
  | r :: rest, t, v =>
    let answer := r.process ⟨scene, t.changes.working, config⟩ t.ids t.memory t.command v
    answer :: match answer.verdict with
      | .error _ => []
      | .ok v' =>
        answers scene config rest (t.absorb answer)
          { v' with severity := v'.severity.raise v.severity }

/-- A trial takes up the answers of its rules, one after the other. -/
theorem run_eq_foldl (scene : Scene α) (config : Config α) (rules : List (Rule α μ)) (t : Trial α μ)
    (r : Verdict α) :
    (run scene config rules t r).1 = (answers scene config rules t r).foldl Trial.absorb t := by
  induction rules generalizing t r with
  | nil => rfl
  | cons rule rules ih =>
    unfold run answers
    generalize rule.process ⟨scene, t.changes.working, config⟩ t.ids t.memory t.command r = a
    cases ha : a.verdict with
    | error f => simp only [ha, List.foldl_cons, List.foldl_nil]
    | ok r' => simp only [ha, List.foldl_cons, ih]

end Checklist

/-- Touched is what some answer has staged, and what was touched before. -/
theorem Trial.mem_touched_foldl_absorb (as : List (RuleAnswer α μ)) (t : Trial α μ)
    (id : EntityId) :
    id ∈ (as.foldl Trial.absorb t).changes.touched ↔
      id ∈ t.changes.touched ∨ id ∈ as.flatMap fun a => a.staged.map (·.id) := by
  induction as generalizing t with
  | nil => simp
  | cons a as ih =>
    have habsorb : (t.absorb a).changes = t.changes.stageAll a.staged := rfl
    rw [List.foldl_cons, ih, habsorb, Transaction.mem_touched_stageAll, List.flatMap_cons,
      List.mem_append, or_assoc]

/-- A surrogate that a command makes is one of its own entity. -/
theorem WorkingSet.entityId_of_surrogateFor [Scalar α] {w : WorkingSet α} {scene : Scene α}
    {c : Command α} {s : Surrogate α} (h : w.surrogateFor scene c = .ok (some s)) :
    c.entityId = some s.id := by
  cases c with
  | composite => cases h
  | single header e =>
    rw [surrogateFor_single] at h
    cases hq : w.base? scene e with
    | none => rw [hq] at h; cases h
    | some q =>
      rw [hq] at h
      have happly : (if e.entityId = q.id then q.edit e else none) = some s := Except.ok.inj h
      split at happly
      · next hid => rw [Command.entityId, Surrogate.edit_id hid.symm happly]
      · cases happly

/-- Whatever a session was used for, it starts the next pass like a fresh one. -/
theorem Session.renew_eq [Scalar α] (s : Session α) (epsilon : α) :
    s.renew epsilon = Session.fresh.renew epsilon := by
  have hpocket := WorkingSet.pocket_restoreAll s.working
  unfold Session.renew WorkingSet.clear
  rw [hpocket]
  rfl

namespace Validator

variable [Scalar α] {v : Validator α μ} {scene : Scene α} {edit : Command α} {p p' : Pass α μ}
  {c : Command α}

/-- The entities that the rules of a turn stage something for. -/
def staged (v : Validator α μ) (scene : Scene α) (p : Pass α μ) (c : Command α) : List EntityId :=
  let answers := match v.checklistFor? c with
    | some l => Checklist.answers scene v.config l.rules (trial p c) .approval
    | none => []
  answers.flatMap fun a => a.staged.map (·.id)

omit [Scalar α] in
theorem mem_touched_tried (v : Validator α μ) (scene : Scene α) (p : Pass α μ) (c : Command α)
    (id : EntityId) : id ∈ (v.tried scene p c).changes.touched ↔ id ∈ v.staged scene p c := by
  unfold tried judge staged
  show id ∈ (match v.checklistFor? c with
    | some l => l.evaluate scene v.config (trial p c)
    | none => (trial p c, .ok .approval)).1.changes.touched ↔ _
  cases v.checklistFor? c with
  | none => simp [trial]
  | some l =>
    simp only [Checklist.evaluate, Checklist.run_eq_foldl, Trial.mem_touched_foldl_absorb]
    simp [trial]

/-! ## One turn -/

/-- A turn that rejects without clearing everything leaves the working set as it was. -/
theorem working_rejecting_turn (edit : Command α) (rest : List (Command α))
    (hpocket : p.session.working.pocket = .empty) {a : FailureAction}
    (h : (v.turn scene p c).action? = some a) (ha : a ≠ .clearAll) :
    ((v.judged scene p c rest).settle edit (v.turn scene p c)).session.working =
      p.session.working := by
  rw [Pass.working_settle _ edit h ha]
  exact working_of_action? hpocket h

/-- An approving turn changes what its rules staged and its own entity, and nothing else. -/
theorem get?_approving_turn (edit : Command α) (rest : List (Command α))
    (hpocket : p.session.working.pocket = .empty) (h : (v.turn scene p c).action? = none)
    {id : EntityId} (hstaged : id ∉ v.staged scene p c)
    (hown : (v.turn scene p c).left.entityId ≠ some id) :
    ((v.judged scene p c rest).settle edit (v.turn scene p c)).session.working.get? id =
      p.session.working.get? id := by
  obtain ⟨r, hr, happroved⟩ := Dispatch.exists_approved h
  obtain ⟨_, made, hmade, hsession⟩ := approving_turn edit rest hr happroved
  have huntouched : (v.tried scene p c).changes.working.get? id = p.session.working.get? id :=
    (since_tried hpocket c).untouched id (by rwa [mem_touched_tried])
  rw [hsession, Transaction.get?_keep_stageIfAny, ← huntouched]
  cases made with
  | none => rfl
  | some s =>
    have hs : id ≠ s.id := fun hid => hown (hid ▸ WorkingSet.entityId_of_surrogateFor hmade)
    rw [WorkingSet.addIfAny, WorkingSet.get?_add, if_neg hs]

/-! ## Passes -/

variable {session : Session α} {ids : IdSource} {memory : μ}

/-- A validation starts as it would with a fresh session. -/
theorem validate_fresh (hchecks : v.checks edit = true) (budget : Nat) (scene : Scene α)
    (session : Session α) (ids : IdSource) (memory : μ) :
    v.validate budget scene session ids memory edit = v.validate budget scene .fresh ids
      memory edit := by
  have hstart : v.start session ids memory edit = v.start .fresh ids memory edit := by
    unfold start
    rw [session.renew_eq]
  unfold validate
  rw [hchecks, hstart]
  rfl

/-- At the start of a turn nothing is on trial, and nothing is issued that is not in line. -/
theorem settled_of_reaches (h : v.Reaches scene edit (v.start session ids memory edit) p) :
    p.session.working.pocket = .empty ∧ p.session.queues.issued = [] := by
  refine h.invariant (P := fun p => p.session.working.pocket = .empty ∧
    p.session.queues.issued = [])
    ⟨WorkingSet.pocket_restoreAll session.working, by rw [queues_start]⟩ fun a b ha hstep => ?_
  refine ⟨pocket_step? ha.1 hstep, ?_⟩
  obtain ⟨c, rest, _, rfl⟩ := step?_eq_some.1 hstep
  exact Pass.issued_settle ..

/--
**Turns and passes leave no trace.** Whatever the rules stage and issue, and whatever the session
was used for before: at the start of each turn nothing is on trial and nothing is left that was
issued; a turn that rejects without clearing everything leaves the surrogates as they were; one that
approves changes them only where its rules staged something, and at the entity of its command; and a
validation comes to what it would come to with a fresh session.
-/
theorem leaves_no_trace (hchecks : v.checks edit = true) (scene : Scene α) (session : Session α)
    (ids : IdSource) (memory : μ) :
    (∀ p, v.Reaches scene edit (v.start session ids memory edit) p →
      p.session.working.pocket = .empty ∧ p.session.queues.issued = [] ∧
      ∀ p', v.step? scene edit p = some p' → ∃ d, p'.history = p.history ++ [d] ∧
        (∀ a, d.action? = some a → a ≠ .clearAll →
          p'.session.working.surrogates = p.session.working.surrogates) ∧
        (d.action? = none → ∀ id, id ∉ v.staged scene p d.given → d.left.entityId ≠ some id →
          p'.session.working.get? id = p.session.working.get? id)) ∧
    ∀ budget, v.validate budget scene session ids memory edit =
      v.validate budget scene .fresh ids memory edit := by
  refine ⟨fun p hreach => ?_, fun budget => validate_fresh hchecks budget scene session ids memory⟩
  obtain ⟨hpocket, hissued⟩ := settled_of_reaches hreach
  refine ⟨hpocket, hissued, fun p' hstep => ?_⟩
  obtain ⟨c, rest, _, rfl⟩ := step?_eq_some.1 hstep
  refine ⟨v.turn scene p c, Pass.history_settle .., fun a ha hclear => ?_,
    fun hd id hstaged hown => ?_⟩
  · rw [working_rejecting_turn edit rest hpocket ha hclear]
  · exact get?_approving_turn edit rest hpocket hd hstaged hown

/-- A move of the second block is tried out at two places, and refused. -/
def triedTwice : Script Float where
  name := "try"
  entity := some 2
  stage := [{ Entity.new 2 .model (.splat 1) with position := ⟨6, 0, 0⟩ },
    { Entity.new 2 .model (.splat 1) with position := ⟨7, 0, 0⟩ }]
  reject := some .clearCurrent

def fitting : Validator Float Firings where
  routing := { bindings := [⟨[.move], none, ⟨[triedTwice.rule 0]⟩⟩] }
  config := .standard

/-- What a pass left that was broken off. -/
def brokenOff : Session Float where
  working :=
    { epsilon := 1
      surrogates := .ofList [(2, .ofEntity (Entity.new 2 .model (.splat 1)))]
      pocket := .ofList [(2, none)] }
  queues :=
    { pending := [.single { id := 9 } (.remove .entity 2)]
      issued := [.single { id := 8 } (.remove .entity 1)] }

/-- A session that was broken off in a trial: two places are tried out,
and the pocket is empty after. -/
theorem leaves_no_trace_brokenOff : ∃ p p' : Pass Float Firings,
    fitting.checks bothMoved = true ∧
    fitting.Reaches blocks bothMoved (fitting.start brokenOff {} [] bothMoved) p ∧
    fitting.step? blocks bothMoved p = some p' ∧
    p'.history.map Dispatch.action? = [none, some .clearCurrent] ∧
    p.session.working.surrogates.keys = [1] ∧
    p'.session.working.surrogates = p.session.working.surrogates ∧
    fitting.validate 2 blocks brokenOff {} [] bothMoved =
      fitting.validate 2 blocks .fresh {} [] bothMoved := by
  have hrun :
      ((fitting.step? blocks bothMoved (fitting.start brokenOff {} [] bothMoved)).any fun p =>
      p.session.working.surrogates.keys == [1] && (fitting.step? blocks bothMoved p).any fun p' =>
        p'.history.map Dispatch.action? == [none, some .clearCurrent]) = true := by decide +kernel
  obtain ⟨p, hfirst, hrun⟩ := (Option.any_eq_true _ _).1 hrun
  obtain ⟨hkeys, hrun⟩ := Bool.and_eq_true_iff.1 hrun
  obtain ⟨p', hsecond, hactions⟩ := (Option.any_eq_true _ _).1 hrun
  have hreach : fitting.Reaches blocks bothMoved (fitting.start brokenOff {} [] bothMoved) p :=
    .step .refl hfirst
  have hchecks : fitting.checks bothMoved = true := rfl
  obtain ⟨hturns, hfresh⟩ := leaves_no_trace hchecks blocks brokenOff {} []
  obtain ⟨_, _, hturn⟩ := hturns p hreach
  obtain ⟨d, hhistory, hrejected, _⟩ := hturn p' hsecond
  have hactions := beq_iff_eq.1 hactions
  refine ⟨p, p', hchecks, hreach, hsecond, hactions, beq_iff_eq.1 hkeys,
    hrejected .clearCurrent ?_ (by decide), hfresh 2⟩
  -- the second of the two turns is the last one
  simpa [hhistory] using congrArg List.getLast? hactions

end Validator

end SceneGuard
