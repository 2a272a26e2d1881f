import SceneGuard.Proofs.Pass.Hearings
import SceneGuard.Proofs.Pass.Order

/-!
# Severities along a pass

A rule may answer with any severity, also with a lower one than it was handed. The checklist makes
up for that after each rule, and the pass after each turn, so that the outcome has the worst
severity that any rule came to. Main statements:

* `Checklist.severity_handed`, `Checklist.severity_run` — what is handed on is the worst so far;
* `Pass.severity_settle`, `severity_of_reaches` — a turn adds its own, and so a pass has the worst
  of all;
* `severity_never_lost` — the severity of an outcome, and what the last rule of a checklist decides.
-/

namespace SceneGuard

variable {α μ : Type}

namespace Severity

variable {a b c : Severity}

/-- Of two severities the worse one counts, whichever comes first. -/
theorem raise_comm (a b : Severity) : a.raise b = b.raise a := by
  cases a <;> cases b <;> rfl

theorem raise_assoc (a b c : Severity) : (a.raise b).raise c = a.raise (b.raise c) := by
  cases a <;> cases b <;> cases c <;> rfl

@[simp] theorem raise_ok (a : Severity) : a.raise .ok = a := by
  cases a <;> rfl

@[simp] theorem ok_raise (a : Severity) : ok.raise a = a := by
  cases a <;> rfl

@[simp] theorem raise_error (a : Severity) : a.raise .error = .error := by
  cases a <;> rfl

/-- The worse of two is the least that is as bad as both. -/
theorem raise_le_iff : a.raise b ≤ c ↔ a ≤ c ∧ b ≤ c := by
  cases a <;> cases b <;> cases c <;> decide

/-- The worst of some severities; without any there is nothing to report. -/
def worst (l : List Severity) : Severity := l.foldr raise .ok

@[simp] theorem worst_nil : worst [] = .ok := rfl

/-- One more severity counts if it is worse than the others. -/
@[simp] theorem worst_cons (a : Severity) (l : List Severity) :
    worst (a :: l) = a.raise (worst l) := rfl

/-- The worst of two lists is the worse one of their worst. -/
theorem worst_append (l l' : List Severity) : worst (l ++ l') = (worst l).raise (worst l') := by
  induction l with
  | nil => simp
  | cons a l ih => rw [List.cons_append, worst_cons, worst_cons, ih, raise_assoc]

/-- A bound for the worst is one for all. -/
theorem worst_le_iff {l : List Severity} : worst l ≤ c ↔ ∀ a ∈ l, a ≤ c := by
  induction l with
  | nil => cases c <;> simp [worst] <;> decide
  | cons a l ih => rw [worst_cons, raise_le_iff, ih, List.forall_mem_cons]

theorem le_worst {l : List Severity} (ha : a ∈ l) : a ≤ worst l :=
  worst_le_iff.1 (Nat.le_refl _) a ha

/-- Nothing is worse than an error. -/
theorem worst_eq_error {l : List Severity} (h : .error ∈ l) : worst l = .error := by
  have hle : error ≤ worst l := le_worst h
  cases hworst : worst l <;> rw [hworst] at hle <;> first | rfl | exact absurd hle (by decide)

/-- The worst of all is the worst among the worst of each. -/
theorem worst_flatMap {β : Type} (f : β → List Severity) (l : List β) :
    worst (l.flatMap f) = worst (l.map fun x => worst (f x)) := by
  induction l with
  | nil => rfl
  | cons x l ih => rw [List.flatMap_cons, worst_append, ih, List.map_cons, worst_cons]

end Severity

open Severity

/-! ## Along a checklist -/

/-- The severity that a rule came to; none when it was at fault. -/
def Hearing.severity? (g : Hearing α μ) : Option Severity :=
  match g.answer.verdict with
  | .ok r => some r.severity
  | .error _ => none

/-- A rule that comes to a verdict is heard with the severity of that. -/
theorem Hearing.severity?_of_ok {g : Hearing α μ} {u : Verdict α} (h : g.answer.verdict = .ok u) :
    g.severity? = some u.severity := by
  rw [severity?, h]

namespace Checklist

variable {scene : Scene α} {config : Config α} {rules : List (Rule α μ)} {t t' : Trial α μ}
  {v r : Verdict α} {before after : List (Hearing α μ)} {g : Hearing α μ}

/-- What a rule is handed is as bad as the worst that was said before it. -/
theorem severity_handed (h : hearings scene config rules t v = before ++ g :: after) :
    g.handed.severity = v.severity.raise (worst (before.filterMap Hearing.severity?)) := by
  induction rules generalizing t v before with
  | nil => simp [hearings] at h
  | cons rule rules ih =>
    unfold hearings at h
    cases before with
    | nil =>
      obtain ⟨rfl, _⟩ := List.cons.inj h
      show v.severity = _
      simp
    | cons b before =>
      obtain ⟨rfl, hrest⟩ := List.cons.inj h
      cases hu : (hear scene config rule t v).answer.verdict with
      | error f => simp [hu] at hrest
      | ok u =>
        -- the rule after this one is handed the worse of what this one was handed and came to
        simp only [hu] at hrest
        rw [ih hrest, List.filterMap_cons_some (Hearing.severity?_of_ok hu), worst_cons,
          ← raise_assoc, raise_comm u.severity]

/-- The verdict of a run is as bad as the worst that was said in it. -/
theorem severity_run (h : run scene config rules t v = (t', .ok r)) :
    r.severity =
      v.severity.raise (worst ((hearings scene config rules t v).filterMap Hearing.severity?)) := by
  induction rules generalizing t v with
  | nil =>
    cases h
    simp [hearings]
  | cons rule rules ih =>
    obtain ⟨u, hu, hrest, hheard⟩ := hearings_of_run h
    rw [ih hrest, hheard, List.filterMap_cons_some (Hearing.severity?_of_ok hu), worst_cons,
      ← raise_assoc, raise_comm u.severity]

/-- The severity apart, a run comes to what its last rule says. -/
theorem verdict_run (h : run scene config rules t v = (t', .ok r))
    (hlast : hearings scene config rules t v = before ++ [g]) :
    ∃ u, g.answer.verdict = .ok u ∧ r = { u with severity := r.severity } := by
  induction rules generalizing t v before with
  | nil => simp [hearings] at hlast
  | cons rule rules ih =>
    obtain ⟨u, hu, hrest, hheard⟩ := hearings_of_run h
    rw [hheard] at hlast
    cases before with
    | cons b before => exact ih hrest (List.cons.inj hlast).2
    | nil =>
      -- no rule is heard after this one, so that none is left
      obtain ⟨rfl, hnone⟩ := List.cons.inj hlast
      have hrules : rules = [] := by
        rw [← (rules_of_hearings hrest).1, hnone]
        rfl
      subst hrules
      cases hrest
      exact ⟨u, hu, rfl⟩

end Checklist

/-!
## Along a pass

To raise a severity is associative and never lowers it, so the worst of all can be taken within each
turn first, and then over the turns.
-/

/-- How bad a turn was. A fault is an error. -/
def Dispatch.severity (d : Dispatch α) : Severity :=
  match d.verdict with
  | .ok r => r.severity
  | .error _ => .error

theorem Dispatch.severity_of_fault {d : Dispatch α} (h : d.fault?.isSome = true) :
    d.severity = .error := by
  unfold fault? at h
  unfold severity
  cases hverdict : d.verdict with
  | error f => rfl
  | ok r => simp [hverdict] at h

namespace Pass

/-- To go back does not change the severity. -/
theorem severity_rollBack (edit : Command α) (a : FailureAction) (p : Pass α μ) :
    (p.rollBack edit a).severity = p.severity := by
  rw [rollBack_eq]
  split <;> cases a <;> rfl

/-- A turn raises the severity of its pass to its own. -/
theorem severity_settle (p : Pass α μ) (edit : Command α) (d : Dispatch α) :
    (p.settle edit d).severity = p.severity.raise d.severity := by
  unfold settle Dispatch.severity
  cases d.verdict with
  | error f => simp [severity_rollBack]
  | ok r => simp only; split <;> simp [severity_rollBack]

end Pass

namespace Validator

variable [Scalar α] {v : Validator α μ} {scene : Scene α} {edit : Command α} {p : Pass α μ}
  {c : Command α}

/-- A pass is as bad as the worst of its turns. -/
theorem severity_of_reaches {session : Session α} {ids : IdSource} {memory : μ}
    (h : v.Reaches scene edit (v.start session ids memory edit) p) :
    p.severity = worst (p.history.map Dispatch.severity) := by
  refine h.invariant (P := fun p => p.severity = worst (p.history.map Dispatch.severity)) rfl
    fun a b ha hstep => ?_
  obtain ⟨c, rest, _, rfl⟩ := step?_eq_some.1 hstep
  have hjudged : (v.judged scene a c rest).severity =
      worst ((v.judged scene a c rest).history.map Dispatch.severity) := ha
  rw [Pass.severity_settle, Pass.history_settle, hjudged, List.map_append, worst_append]
  simp

/-- A turn without a fault is as bad as the worst that a rule came to in it. -/
theorem severity_turn (h : (v.turn scene p c).fault? = none) :
    (v.turn scene p c).severity = worst ((v.hearings scene p c).filterMap Hearing.severity?) := by
  unfold Dispatch.fault? at h
  cases hverdict : (v.turn scene p c).verdict with
  | error f => simp [hverdict] at h
  | ok r =>
    have hjudge : v.judge scene (trial p c) = (v.tried scene p c, .ok r) :=
      Prod.ext rfl (judge_of_verdict hverdict)
    rw [Dispatch.severity, hverdict]
    unfold judge at hjudge
    unfold hearings
    show r.severity = _
    -- a command without a checklist is approved unheard
    cases hlist : v.checklistFor? c with
    | none =>
      simp only [trial, hlist, Prod.mk.injEq, Except.ok.injEq] at hjudge
      rw [← hjudge.2]
      rfl
    | some l =>
      simp only [trial, hlist] at hjudge
      exact (Checklist.severity_run hjudge).trans (ok_raise _)

/-- In the end it is the worst of all turns. -/
theorem severity_of_validate {budget : Nat} {session : Session α} {ids : IdSource} {memory : μ}
    {result : Validation α μ} (hchecks : v.checks edit = true)
    (h : v.validate budget scene session ids memory edit = some result) :
    result.outcome.severity = worst (result.history.map Dispatch.severity) := by
  unfold validate at h
  rw [hchecks] at h
  obtain ⟨q, hrun, rfl⟩ := Option.map_eq_some_iff.1 h
  exact severity_of_reaches (reaches_of_run hrun).1

/-- Without a fault, some turns are as bad as the worst that a rule came to in any of them. -/
theorem severity_transcript {budget : Nat} {session : Session α} {ids : IdSource} {memory : μ}
    (h : ∀ turn ∈ v.transcript budget scene session ids memory edit, turn.1.fault? = none) :
    worst ((v.transcript budget scene session ids memory edit).map (·.1.severity)) =
      worst ((v.transcript budget scene session ids memory edit).flatMap
        fun turn => turn.2.filterMap Hearing.severity?) := by
  have hturns : ∀ turn ∈ v.transcript budget scene session ids memory edit,
      turn.1.severity = worst (turn.2.filterMap Hearing.severity?) := fun turn hturn => by
    obtain ⟨q, c, rest, _, _, rfl⟩ := turn_of_mem_proceedings hturn
    exact severity_turn (h _ hturn)
  rw [worst_flatMap, List.map_congr_left hturns]

/--
**No severity is lost.** Whatever the rules answer: without a fault, the outcome has the worst
severity that any rule came to on any command that had a turn, rejected or not, and with a fault it
is an error. Within a checklist, what a rule is handed is as bad as anything that was said before,
while everything else about the verdict is what the last rule said.
-/
theorem severity_never_lost {budget : Nat} {session : Session α} {ids : IdSource} {memory : μ}
    {result : Validation α μ} (hchecks : v.checks edit = true)
    (h : v.validate budget scene session ids memory edit = some result) :
    result.history = (v.transcript budget scene session ids memory edit).map Prod.fst ∧
    result.outcome.severity =
      (if result.history.any (·.fault?.isSome) then .error
      else worst ((v.transcript budget scene session ids memory edit).flatMap
        fun turn => turn.2.filterMap Hearing.severity?)) ∧
    ∀ (l : Checklist α μ) (t : Trial α μ),
      (∀ before g after, Checklist.hearings scene v.config l.rules t .approval =
        before ++ g :: after →
        ∀ b ∈ before, ∀ s, b.severity? = some s → s ≤ g.handed.severity) ∧
      (∀ before g r, Checklist.hearings scene v.config l.rules t .approval = before ++ [g] →
        (l.evaluate scene v.config t).2 = .ok r →
        ∃ u, g.answer.verdict = .ok u ∧ r = { u with severity := r.severity }) := by
  have hhistory := history_of_validate hchecks h
  refine ⟨hhistory, ?_,
      fun l t => ⟨fun before g after hsplit b hb s hs => ?_, fun before g r hlast hr =>
    Checklist.verdict_run (Prod.ext rfl hr) hlast⟩⟩
  · rw [severity_of_validate hchecks h]
    split
    · next hfault =>
      obtain ⟨d, hd, hfault⟩ := List.any_eq_true.1 hfault
      exact worst_eq_error (List.mem_map.2 ⟨d, hd, Dispatch.severity_of_fault hfault⟩)
    · next hfault =>
      rw [hhistory, List.map_map]
      refine severity_transcript fun turn hturn => ?_
      have hmem : turn.1 ∈ result.history := hhistory ▸ List.mem_map_of_mem hturn
      simpa using mt (fun hsome => List.any_eq_true.2 ⟨turn.1, hmem, hsome⟩) hfault
  · -- what a rule is handed is the worst of the answers before it
    rw [Checklist.severity_handed hsplit]
    have hbefore : s ∈ before.filterMap Hearing.severity? := List.mem_filterMap.2 ⟨b, hb, hs⟩
    exact Nat.le_trans (le_worst hbefore) (raise_le_iff.1 (Nat.le_refl _)).2

/-- A move of the first block is refused, and called questionable. -/
def questioned : Script Float where
  name := "questioned"
  entity := some 1
  reject := some .clearCurrentNoReset
  setSeverity := some .warning

/-- Whatever has been said, nothing is to be reported. -/
def played : Script Float where
  name := "played down"
  limit := 2
  setSeverity := some .ok

def lenient : Validator Float Firings where
  routing := { bindings := [⟨[.move], none, ⟨[questioned.rule 0, played.rule 1]⟩⟩] }
  config := .standard

/-- A rule plays the first warnings down, and they count all the same. -/
theorem severity_never_lost_lenient : ∃ result : Validation Float Firings,
    lenient.checks bothMoved = true ∧
    lenient.validate 2 blocks .fresh {} [] bothMoved = some result ∧
    ((lenient.transcript 2 blocks .fresh {} [] bothMoved).flatMap
      fun turn => turn.2.filterMap Hearing.severity?) = [.warning, .ok, .ok, .ok] ∧
    result.outcome.severity = .warning := by
  have hrun : ((lenient.validate 2 blocks .fresh {} [] bothMoved).any fun r =>
      !r.history.any (·.fault?.isSome)) = true := by decide +kernel
  have hsaid : ((lenient.transcript 2 blocks .fresh {} [] bothMoved).flatMap
      fun turn => turn.2.filterMap Hearing.severity?) = [.warning, .ok, .ok, .ok] := by
        decide +kernel
  obtain ⟨result, h, hfaults⟩ := (Option.any_eq_true _ _).1 hrun
  refine ⟨result, rfl, h, hsaid, ?_⟩
  have hnone : result.history.any (·.fault?.isSome) = false := by simpa using hfaults
  rw [(severity_never_lost (by rfl) h).2.1, hnone, hsaid]
  rfl

end Validator

end SceneGuard
