import SceneGuard.Proofs.Pass.Record
import SceneGuard.Proofs.Rule.Builtin

/-!
# Hearings

The history of a pass tells what became of each command, and not which rules had a say in it. Here
each turn is recorded together with the hearings in it (`Validator.proceedings`): which rule was
heard, on which command, what the rules before it had decided, and what it answered. Main
statements:

* `Checklist.rules_of_hearings` — in a run that comes to a verdict every rule is heard, each once
  and in order;
* `history_run` — the proceedings are those of the turns in the history;
* `turn_of_mem_proceedings` — each of them is of a turn that the pass came to.
-/

namespace SceneGuard

variable {α μ : Type}

/-- A rule is heard on a command. -/
structure Hearing (α μ : Type) where
  rule : Rule α μ
  /-- The command as the rules before left it. -/
  command : Command α
  /-- What the rules before have decided, as it is handed to the rule. -/
  handed : Verdict α
  answer : RuleAnswer α μ

namespace Checklist

variable {scene : Scene α} {config : Config α} {rule : Rule α μ} {rules : List (Rule α μ)}
  {t t' : Trial α μ} {v r : Verdict α}

/-- The hearing of a rule on what the rules before it have left and decided. -/
def hear (scene : Scene α) (config : Config α) (rule : Rule α μ) (t : Trial α μ) (v : Verdict α) :
    Hearing α μ :=
  ⟨rule, t.command, v, rule.process ⟨scene, t.changes.working, config⟩ t.ids t.memory t.command v⟩

/-- The hearings of a run, in order. After a fault no rule is heard any more. -/
def hearings (scene : Scene α) (config : Config α) :
    List (Rule α μ) → Trial α μ → Verdict α → List (Hearing α μ)
  | [], _, _ => []
  | rule :: rest, t, v =>
    let g := hear scene config rule t v
    g :: match g.answer.verdict with
      | .error _ => []
      | .ok v' =>
        hearings scene config rest (t.absorb g.answer)
          { v' with severity := v'.severity.raise v.severity }

/-- In a run that comes to a verdict the first rule is not at fault,
and the others are heard on what it left. -/
theorem hearings_of_run (h : run scene config (rule :: rules) t v = (t', .ok r)) :
    ∃ u, (hear scene config rule t v).answer.verdict = .ok u ∧
      run scene config rules (t.absorb (hear scene config rule t v).answer)
        { u with severity := u.severity.raise v.severity } = (t', .ok r) ∧
      hearings scene config (rule :: rules) t v = hear scene config rule t v ::
        hearings scene config rules (t.absorb (hear scene config rule t v).answer)
          { u with severity := u.severity.raise v.severity } := by
  obtain ⟨u, hu, hrest⟩ := run_cons_eq_ok.1 h
  have hu : (hear scene config rule t v).answer.verdict = .ok u := hu
  exact ⟨u, hu, hrest, by simp only [hearings, hu]⟩

/-- A run comes to a verdict when every rule is heard and none is at fault. -/
theorem rules_of_hearings (h : run scene config rules t v = (t', .ok r)) :
    (hearings scene config rules t v).map Hearing.rule = rules ∧
      ∀ g ∈ hearings scene config rules t v, ∃ u, g.answer.verdict = .ok u := by
  induction rules generalizing t v with
  | nil => exact ⟨rfl, by simp [hearings]⟩
  | cons rule rules ih =>
    obtain ⟨u, hu, hrest, hheard⟩ := hearings_of_run h
    obtain ⟨hrules, hall⟩ := ih hrest
    rw [hheard, List.map_cons, hrules]
    exact ⟨rfl, List.forall_mem_cons.2 ⟨⟨u, hu⟩, hall⟩⟩

end Checklist

namespace Validator

variable [Scalar α] {v : Validator α μ} {scene : Scene α} {edit : Command α} {p q : Pass α μ}

/-- The hearings in the turn of a command; none when no checklist is for it. -/
def hearings (v : Validator α μ) (scene : Scene α) (p : Pass α μ) (c : Command α) :
    List (Hearing α μ) :=
  match v.checklistFor? c with
  | some l => Checklist.hearings scene v.config l.rules (trial p c) .approval
  | none => []

/-- The turns of a run, each with the hearings in it. -/
def proceedings (v : Validator α μ) (scene : Scene α) (edit : Command α) :
    Nat → Pass α μ → List (Dispatch α × List (Hearing α μ))
  | 0, _ => []
  | budget + 1, p =>
    match p.session.queues.pending with
    | [] => []
    | c :: rest =>
      (v.turn scene p c, v.hearings scene p c) ::
        v.proceedings scene edit budget ((v.judged scene p c rest).settle edit (v.turn scene p c))

/-- A run adds the turns of its proceedings to the history. -/
theorem history_run {budget : Nat} (h : v.run scene edit budget p = some q) :
    q.history = p.history ++ (v.proceedings scene edit budget p).map Prod.fst := by
  -- on the budget: a turn appends itself, and the rest is the run from there
  induction budget generalizing p with
  | zero =>
    unfold run at h
    split at h
    · cases h
      exact (List.append_nil _).symm
    · cases h
  | succ budget ih =>
    unfold proceedings
    cases hpending : p.session.queues.pending with
    | nil =>
      rw [run_of_pending hpending] at h
      cases h
      exact (List.append_nil _).symm
    | cons c rest =>
      have hstep : v.step? scene edit p = some _ := step?_eq_some.2 ⟨c, rest, hpending, rfl⟩
      rw [run_of_step? budget hstep] at h
      rw [ih h, Pass.history_settle, List.append_assoc]
      rfl

/-- Whatever is recorded happened in a turn that the pass came to. -/
theorem turn_of_mem_proceedings {budget : Nat} {x : Dispatch α × List (Hearing α μ)}
    (hx : x ∈ v.proceedings scene edit budget p) :
    ∃ q c rest, v.Reaches scene edit p q ∧ q.session.queues.pending = c :: rest ∧
      x = (v.turn scene q c, v.hearings scene q c) := by
  induction budget generalizing p with
  | zero => cases hx
  | succ budget ih =>
    unfold proceedings at hx
    cases hpending : p.session.queues.pending with
    | nil => simp [hpending] at hx
    | cons c rest =>
      simp only [hpending] at hx
      -- the first turn is taken here, any later one after this step
      rcases List.mem_cons.1 hx with rfl | hx
      · exact ⟨p, c, rest, .refl, hpending, rfl⟩
      · obtain ⟨q, c', rest', hreach, hq, rfl⟩ := ih hx
        exact ⟨q, c', rest', hreach.head (step?_eq_some.2 ⟨c, rest, hpending, rfl⟩), hq, rfl⟩

/-- The proceedings of a whole validation. -/
def transcript (v : Validator α μ) (budget : Nat) (scene : Scene α) (session : Session α)
    (ids : IdSource) (memory : μ) (edit : Command α) : List (Dispatch α × List (Hearing α μ)) :=
  v.proceedings scene edit budget (v.start session ids memory edit)

/-- The transcript of a validation is of the turns in its history. -/
theorem history_of_validate {budget : Nat} {session : Session α} {ids : IdSource} {memory : μ}
    {result : Validation α μ} (hchecks : v.checks edit = true)
    (h : v.validate budget scene session ids memory edit = some result) :
    result.history = (v.transcript budget scene session ids memory edit).map Prod.fst := by
  unfold validate at h
  rw [hchecks] at h
  obtain ⟨q, hrun, rfl⟩ := Option.map_eq_some_iff.1 h
  exact history_run hrun

end Validator

end SceneGuard
