import SceneGuard.Proofs.Pass.Hearings
import SceneGuard.Proofs.Pass.Order
import SceneGuard.Proofs.Pass.Tracking

/-!
# What is executed was checked

Where nothing is forced, a single command is executed after it had a turn of its own, in which every
rule for it was heard and it was approved. Composites are the exception: the ones in the edit are
taken apart before their turns come, and the ones that rules issue are not. They have a turn as a
whole, in which the rules for composites are heard, and their members have none. Main statements:

* `Checklist.commands_of_hearings` — from rule to rule the command is handed on as the rule before
  left it;
* `origin_of_mem_history` — turns go to single commands of the edit and to issued commands;
* `approved_inLine` — the reset block apart, what is executed are the approvals;
* `executed_checked` — where each single command that is executed was checked.
-/

namespace SceneGuard

variable {α μ : Type}

/-- A rule that changes what a command says, and not whether it is a single one. -/
def Rule.KeepsSingle (r : Rule α μ) : Prop :=
  ∀ ctx ids memory h e v, ∃ h' e',
    (r.process ctx ids memory (.single h e) v).command = .single h' e'

/-- A rule that only judges leaves the command as it is. -/
theorem Rule.keepsSingle_judging (name : String)
    (judge : RuleContext α → Command α → Verdict α → Except (Fault α) (Verdict α)) :
    (judging name judge : Rule α μ).KeepsSingle :=
  fun _ _ _ h e _ => ⟨h, e, rfl⟩

/-- A script that replaces a command puts a single one in its place, where there was one. -/
theorem Script.keepsSingle_rule [Scalar α] (s : Script α) (place : Nat) :
    (s.rule place).KeepsSingle := by
  intro ctx ids fired h e v
  unfold rule
  simp only
  split
  · exact ⟨h, e, rfl⟩
  · unfold redirect
    split <;> simp_all

namespace Checklist

variable {scene : Scene α} {config : Config α} {rules : List (Rule α μ)} {t t' : Trial α μ}
  {v r : Verdict α}

/-- Each rule is heard on the command as the rule before left it, the first one as it was given. -/
theorem commands_of_hearings (h : run scene config rules t v = (t', .ok r)) :
    (hearings scene config rules t v).map Hearing.command ++ [t'.command] =
      t.command :: (hearings scene config rules t v).map (·.answer.command) := by
  induction rules generalizing t v with
  | nil =>
    cases h
    rfl
  | cons rule rules ih =>
    obtain ⟨u, _, hrest, hheard⟩ := hearings_of_run h
    rw [hheard, List.map_cons, List.cons_append, ih hrest, List.map_cons]
    rfl

/-- From rule to rule a single command stays one. -/
theorem single_run (hrules : ∀ rule ∈ rules, rule.KeepsSingle) {h : Header} {e : Edit α}
    (ht : t.command = .single h e) : ∃ h' e', (run scene config rules t v).1.command =
      .single h' e' := by
  induction rules generalizing t v h e with
  | nil => exact ⟨h, e, ht⟩
  | cons rule rules ih =>
    obtain ⟨h', e', ha⟩ := hrules rule List.mem_cons_self ⟨scene, t.changes.working, config⟩ t.ids
      t.memory h e v
    unfold run
    rw [ht]
    simp only
    split
    · exact ⟨h', e', ha⟩
    · exact ih (fun rule hrule => hrules rule (List.mem_cons_of_mem _ hrule)) ha

end Checklist

/-- What a turn approves was left by a verdict that approves. -/
theorem Dispatch.exists_of_approval? {d : Dispatch α} {c : Command α} (h : d.approval? = some c) :
    ∃ r, d.verdict = .ok r ∧ r.approved = true ∧ d.left = c := by
  unfold approval? at h
  cases hd : d.verdict with
  | error f => simp [hd] at h
  | ok r =>
    rw [hd] at h
    simp only at h
    split at h
    · next hr => exact ⟨r, rfl, hr, Option.some.inj h⟩
    · cases h

/-- What comes in line after a turn was issued in it. -/
theorem Dispatch.mem_issued_of_followUps {d : Dispatch α} {c : Command α} (h : c ∈ d.followUps) :
    c ∈ d.issued := by
  unfold followUps at h
  split at h
  · exact h
  · exact h
  · exact h
  · cases h
  · cases h

namespace Validator

variable [Scalar α] {v : Validator α μ} {scene : Scene α} {edit : Command α} {p : Pass α μ}
  {c : Command α}

/-- The rules that commands are routed to leave single commands single. -/
def KeepsSingle (v : Validator α μ) : Prop :=
  ∀ b ∈ v.routing.bindings, ∀ rule ∈ b.checklist.rules, rule.KeepsSingle

/--
The turn checked a single command: it was the command of the turn, or in a composite that a rule had
issued, and if there is a checklist for the command of the turn then every rule of it was heard, one
after the other.
-/
structure Checks (v : Validator α μ) (history : List (Dispatch α)) (c : Command α)
    (turn : Dispatch α × List (Hearing α μ)) : Prop where
  leaf : turn.1.left = c ∨ turn.1.given.kind = .composite ∧ c ∈ turn.1.left.leaves ∧
    ∃ d ∈ history, turn.1.given ∈ d.issued
  approved : ∃ r, turn.1.verdict = .ok r ∧ r.approved = true
  heard : ∀ l, v.routing.checklistFor? turn.1.given = some l →
    turn.2.map Hearing.rule = l.rules ∧ (∀ g ∈ turn.2, ∃ u, g.answer.verdict = .ok u) ∧
      turn.2.map Hearing.command ++ [turn.1.left] = turn.1.given :: turn.2.map (·.answer.command)

/-! ## In a turn -/

/-- Through the whole turn a single command stays one. -/
theorem single_turn (scene : Scene α) (p : Pass α μ) (hv : v.KeepsSingle) (h : Header)
    (e : Edit α) : ∃ h' e', (v.turn scene p (.single h e)).left = .single h' e' := by
  show ∃ h' e', (v.judge scene (trial p (.single h e))).1.command = .single h' e'
  unfold judge
  cases hlist : v.checklistFor? (.single h e) with
  | none =>
    simp only [trial, hlist]
    exact ⟨h, e, rfl⟩
  | some l =>
    simp only [trial, hlist]
    refine Checklist.single_run (fun rule hrule => ?_) rfl
    obtain ⟨b, hb, hrule⟩ := mem_rules_of_checklistFor? hlist hrule
    exact hv b hb rule hrule

/-- What is executed because of a turn is the command of the turn,
or in a composite that a rule issued. -/
theorem leaf_turn (hv : v.KeepsSingle) {history : List (Dispatch α)} {d : Command α}
    (horigin : c ∈ edit.leaves ∨ ∃ x ∈ history, c ∈ x.issued)
    (hd : d ∈ (v.turn scene p c).left.leaves) :
    (v.turn scene p c).left = d ∨ c.kind = .composite ∧ d ∈ (v.turn scene p c).left.leaves ∧
      ∃ x ∈ history, c ∈ x.issued := by
  cases c with
  | single h e =>
    obtain ⟨h', e', hleft⟩ := single_turn scene p hv h e
    rw [hleft] at hd ⊢
    exact .inl (List.mem_singleton.1 hd).symm
  | composite h description members =>
    refine .inr ⟨rfl, hd, horigin.resolve_left fun hleaf => ?_⟩
    obtain ⟨_, _, hsingle⟩ := Command.single_of_mem_leaves hleaf
    cases hsingle

/-- In a turn that comes to a verdict every rule for the command is heard,
on what the rule before left. -/
theorem hearings_turn {l : Checklist α μ} {r : Verdict α} (hlist : v.checklistFor? c = some l)
    (hr : (v.turn scene p c).verdict = .ok r) :
    (v.hearings scene p c).map Hearing.rule = l.rules ∧
      (∀ g ∈ v.hearings scene p c, ∃ u, g.answer.verdict = .ok u) ∧
      (v.hearings scene p c).map Hearing.command ++ [(v.turn scene p c).left] =
        c :: (v.hearings scene p c).map (·.answer.command) := by
  have hrun : v.judge scene (trial p c) = (v.tried scene p c, .ok r) :=
    Prod.ext rfl (judge_of_verdict hr)
  unfold judge at hrun
  simp only [trial, hlist] at hrun
  unfold hearings
  simp only [hlist]
  obtain ⟨hrules, hheard⟩ := Checklist.rules_of_hearings hrun
  exact ⟨hrules, hheard, Checklist.commands_of_hearings hrun⟩

/-!
## In a pass

There are two ways for a command to come into line: as a single command of the edit, and issued by a
rule. The history tells which it was.
-/

variable {session : Session α} {ids : IdSource} {memory : μ}

/-- A command that has a turn is a single command of the edit, or was issued in a turn before. -/
theorem origin_of_mem_history (h : v.Reaches scene edit (v.start session ids memory edit) p)
    {d : Dispatch α} (hd : d ∈ p.history) : d.given ∈ edit.leaves ∨
      ∃ d' ∈ p.history, d.given ∈ d'.issued := by
  obtain ⟨before, after, hsplit⟩ := List.append_of_mem hd
  obtain ⟨waiting, hline⟩ := (inOrder_of_reaches h).turns before d after hsplit
  have hmem : d.given ∈ edit.leaves ++ before.flatMap Dispatch.followUps := by rw [hline]; simp
  refine (List.mem_append.1 hmem).imp_right fun hmem => ?_
  obtain ⟨d', hd', hissued⟩ := List.mem_flatMap.1 hmem
  exact ⟨d', by simp [hsplit, hd'], Dispatch.mem_issued_of_followUps hissued⟩

/-- What a pass leaves to be executed are its approvals,
and in between the reset block if a turn asked for it. -/
theorem approved_inLine (h : v.Reaches scene edit (v.start session ids memory edit) p) :
    ∃ A block B, p.session.queues.approved = A ++ block ++ B ∧ (∀ c ∈ A ++ B, c ∈ p.approvals) ∧
      (block = [] ∨ (∃ d ∈ p.history, d.resets = true) ∧
        ∃ ids, block = (edit.resetBlock ids).1) := by
  rcases recorded_of_reaches h with ⟨hgoing, _⟩ | hcleared
  · -- the queue of a pass, as the record of its turns gives it
    cases hgoing with
    | kept _ _ hqueue => exact ⟨p.approvals, [], [], by simp [hqueue], by simp, .inl rfl⟩
    | restored before d after ids hsplit hd _ _ hqueue =>
      refine ⟨_, _, _, hqueue, fun c hc => ?_, .inr ⟨⟨d, by simp [hsplit], hd⟩, ids, rfl⟩⟩
      rw [← List.filterMap_append] at hc
      obtain ⟨x, hx, hxc⟩ := List.mem_filterMap.1 hc
      exact List.mem_filterMap.2 ⟨x,
        by rw [hsplit]; simpa using Or.imp_right .inr (List.mem_append.1 hx), hxc⟩
  · obtain ⟨before, d, hlast, hd, _⟩ := hcleared.last
    obtain ⟨ids, hqueue⟩ := hcleared.approved
    refine ⟨[], _, [], by simpa using hqueue, by simp, .inr ⟨⟨d, by simp [hlast], ?_⟩, ids, rfl⟩⟩
    rw [Dispatch.resets, hd]
    rfl

/--
**Nothing is executed unchecked, except in issued composites.** Let no single command of the edit be
forced and no command that a rule issues, and let rules leave single commands single. Then every
single command that is executed and is not of the reset block was approved in a turn, with every
rule heard that is for the command as it was given. The turn was its own, or of a composite that a
rule had issued.
-/
theorem executed_checked {budget : Nat} {result : Validation α μ} (hv : v.KeepsSingle)
    (hchecks : v.checks edit = true) (hedit : ∀ c ∈ edit.leaves, c.header.forced = false)
    (h : v.validate budget scene session ids memory edit = some result)
    (hissued : ∀ d ∈ result.history, ∀ c ∈ d.issued, c.header.forced = false) :
    result.history = (v.transcript budget scene session ids memory edit).map Prod.fst ∧
    ∃ A block B, result.outcome.command.members = A ++ block ++ B ∧
      (block = [] ∨ (∃ d ∈ result.history, d.resets = true) ∧
        ∃ ids, block = (edit.resetBlock ids).1) ∧
      ∀ c ∈ Command.leavesAll (A ++ B), ∃ turn ∈ v.transcript budget scene session ids memory edit,
        v.Checks result.history c turn := by
  obtain ⟨q, hreach, _, hsame, _, _, hmembers, _⟩ := pass_of_validate hchecks h
  have hhistory := history_of_validate hchecks h
  obtain ⟨A, block, B, hqueue, happrovals, hblock⟩ := approved_inLine hreach
  refine ⟨hhistory, A, block, B, hmembers.trans hqueue, hsame ▸ hblock, fun c hc => ?_⟩
  -- the command is in an approval, which was given in a turn
  rw [Command.leavesAll_eq_flatMap] at hc
  obtain ⟨left, hleft, hc⟩ := List.mem_flatMap.1 hc
  obtain ⟨d, hd, happroval⟩ := List.mem_filterMap.1 (happrovals left hleft)
  have hmem : d ∈ result.history := hsame ▸ hd
  rw [hhistory] at hmem
  obtain ⟨turn, hturn, rfl⟩ := List.mem_map.1 hmem
  obtain ⟨p, given, rest, _, _, rfl⟩ := turn_of_mem_proceedings hturn
  obtain ⟨r, hr, happroved, rfl⟩ := Dispatch.exists_of_approval? happroval
  have horigin := origin_of_mem_history hreach hd
  have hforced : given.header.forced = false := by
    rcases horigin with hgiven | ⟨d', hd', hgiven⟩
    · exact hedit _ hgiven
    · exact hissued d' (hsame ▸ hd') _ hgiven
  refine ⟨_, hturn, leaf_turn hv (hsame ▸ horigin) hc, ⟨r, hr, happroved⟩,
    fun l hl => hearings_turn ?_ hr⟩
  unfold checklistFor?
  rw [if_neg (by simp [hforced])]
  exact hl

/-- The first block is brought to where the second one is. -/
def fetched : Command Float :=
  .composite { id := 7 } "fetch" [.single { id := 8 } (.move 1 ⟨0, 0, 9⟩ ⟨5, 0, 0⟩)]

def fetch : Script Float where
  name := "fetch"
  issue := [fetched]

/-- Moves must not end in an overlap, and on a changed property the first block is fetched. -/
def fetching : Validator Float Firings where
  routing := { bindings := [⟨[.move], none, ⟨[.collision .clearCurrent false]⟩⟩,
    ⟨[.changeProperty], none, ⟨[fetch.rule 0]⟩⟩] }
  config := .standard

/-- The rules of the example keep commands single. -/
theorem keepsSingle_fetching : fetching.KeepsSingle := by
  intro b hb rule hrule
  rcases List.mem_cons.1 hb with rfl | hb
  · obtain rfl := List.mem_singleton.1 hrule
    exact Rule.keepsSingle_judging _ _
  · obtain rfl := List.mem_singleton.1 hb
    obtain rfl := List.mem_singleton.1 hrule
    exact fetch.keepsSingle_rule 0

/-- The first block is lifted and made higher. -/
def lifted : Command Float :=
  .composite { id := 1 } "lift"
    [.single { id := 2 } (.move 1 (.splat 0) ⟨0, 0, 9⟩),
      .single { id := 3 } (.changeProperty 1 ⟨"shape", "height"⟩ (.int 1) (.int 2))]

/-- On the lift of the first block another one is fetched,
and of both the turns are told in full. -/
theorem executed_checked_lifted : ∃ result : Validation Float Firings,
    fetching.KeepsSingle ∧ fetching.checks lifted = true ∧
    (∀ c ∈ lifted.leaves, c.header.forced = false) ∧
    fetching.validate 3 blocks .fresh {} [] lifted = some result ∧
    (∀ d ∈ result.history, ∀ c ∈ d.issued, c.header.forced = false) ∧
    result.outcome.command.leaves.map Command.id = [2, 3, 8] ∧
    ∃ A block B, result.outcome.command.members = A ++ block ++ B ∧
      ∀ c ∈ Command.leavesAll (A ++ B), ∃ turn ∈ fetching.transcript 3 blocks .fresh {} [] lifted,
        fetching.Checks result.history c turn := by
  have hrun : ((fetching.validate 3 blocks .fresh {} [] lifted).any fun r =>
      r.history.all (·.issued.all (!·.header.forced)) &&
        r.outcome.command.leaves.map Command.id == [2, 3, 8]) = true := by decide +kernel
  obtain ⟨result, h, hfacts⟩ := (Option.any_eq_true _ _).1 hrun
  simp only [Bool.and_eq_true, List.all_eq_true, Bool.not_eq_true', beq_iff_eq] at hfacts
  obtain ⟨hissued, hids⟩ := hfacts
  obtain ⟨_, A, block, B, hmembers, _, hchecked⟩ :=
    executed_checked keepsSingle_fetching (by rfl) (by decide) h hissued
  exact ⟨result, keepsSingle_fetching, rfl, by decide, h, hissued, hids, A, block, B,
    hmembers, hchecked⟩

/--
A move in a composite that a rule issues is executed though no rule is asked about it. As an edit
the same composite is rejected.
-/
theorem not_executed_checked : ∃ (result : Validation Float Firings) (c : Command Float),
    fetching.checks lifted = true ∧ (∀ d ∈ lifted.leaves, d.header.forced = false) ∧
    fetching.validate 3 blocks .fresh {} [] lifted = some result ∧
    (∀ d ∈ result.history, ∀ x ∈ d.issued, x.header.forced = false) ∧
    (∀ d ∈ result.history, d.resets = false) ∧ result.outcome.approved = true ∧
    c ∈ result.outcome.command.leaves ∧ (fetching.routing.checklistFor? c).isSome ∧
    (∀ d ∈ result.history, d.given.id ≠ c.id ∧ d.left.id ≠ c.id) ∧
    (fetching.validate 3 blocks .fresh {} [] fetched).any (fun r => !r.outcome.approved) =
      true := by
  have hrun : ((fetching.validate 3 blocks .fresh {} [] lifted).any fun r =>
      r.history.all (fun d => d.issued.all (!·.header.forced)) && r.history.all (!·.resets) &&
        r.outcome.approved && r.outcome.command.leaves.any fun c =>
          (fetching.routing.checklistFor? c).isSome &&
            r.history.all fun d => d.given.id != c.id && d.left.id != c.id) = true := by
              decide +kernel
  obtain ⟨result, h, hfacts⟩ := (Option.any_eq_true _ _).1 hrun
  simp only [Bool.and_eq_true, List.all_eq_true, List.any_eq_true, Bool.not_eq_true', bne_iff_ne,
    ne_eq] at hfacts
  obtain ⟨⟨⟨hissued, hresets⟩, happroved⟩, c, hc, hlist, hturns⟩ := hfacts
  exact ⟨result, c, rfl, by decide, h, hissued, hresets, happroved, hc, hlist, hturns, by
    decide +kernel⟩

end Validator

end SceneGuard
