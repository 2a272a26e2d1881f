import SceneGuard.Proofs.Pass.Record
import SceneGuard.Proofs.Results
import SceneGuard.Rule.Scripted

/-!
# The order of turns

Commands have their turns in the order in which they were put in line: first the single commands of
the edit, then what rules issued, turn by turn (`Pass.InOrder`). What was issued in a turn comes in
line when the turn is over, unless the command fell with an action that discards it
(`Dispatch.followUps`). Main statements:

* `pending_settle` — what a turn puts in line;
* `inOrder_step?`, `inOrder_of_reaches` — each turn goes to the command that has waited longest;
* `dispatched_in_order` — so no command is lost, and none has two turns.
-/

namespace SceneGuard

variable {α μ : Type}

/-- What was issued in a turn and is put in line at its end. -/
def Dispatch.followUps (d : Dispatch α) : List (Command α) :=
  match d.action? with
  | none | some .clearCurrent | some .clearCurrentNoReset => d.issued
  | some .clearNewlyIssued | some .clearAll => []

namespace Pass

variable {p : Pass α μ} {edit : Command α} {d : Dispatch α}

/-- A turn that does not clear everything puts its follow-ups behind those that wait. -/
theorem pending_settle (edit : Command α) (hissued : p.session.queues.issued = d.issued)
    (hd : d.action? ≠ some .clearAll) :
    (p.settle edit d).session.queues.pending = p.session.queues.pending ++ d.followUps := by
  cases ha : d.action? with
  | none =>
    rw [(settle_of_approval p edit ha).1, Dispatch.followUps, ha, ← hissued]
    rfl
  -- a rejection keeps the line but for what its action discards
  | some a =>
    have hpending : (p.rollBack edit a).session.queues.pending =
        (p.discarded a).session.queues.pending := by
      rw [rollBack_eq]
      split <;> rfl
    rw [(settle_of_action? p edit ha).1, hpending, Dispatch.followUps, ha, ← hissued]
    cases a with
    | clearAll => exact absurd ha hd
    | clearCurrent | clearCurrentNoReset => rfl
    | clearNewlyIssued => exact (List.append_nil _).symm

/-- After a turn that cleared everything there is no other. -/
theorem Recorded.last_of_clearAll (h : p.Recorded edit) {before after : List (Dispatch α)}
    (hsplit : p.history = before ++ d :: after) (hd : d.action? = some .clearAll) : after = [] := by
  rcases h with ⟨_, _, hclear⟩ | hcleared
  · exact absurd hd (hclear d (by simp [hsplit]))
  · obtain ⟨before', d', hlast, _, _, hbefore⟩ := hcleared.last
    rcases split_concat (hlast.symm.trans hsplit) with ⟨_, _, hnil⟩ | ⟨after', _, hsplit'⟩
    · exact hnil
    · exact absurd hd (hbefore d (by simp [hsplit']))

/-- While something is in line, nothing was cleared. -/
theorem Recorded.not_clearAll (h : p.Recorded edit) (hpending : p.session.queues.pending ≠ []) :
    ∀ d ∈ p.history, d.action? ≠ some .clearAll := by
  rcases h with ⟨_, _, hclear⟩ | hcleared
  · exact hclear
  · exact absurd hcleared.pending hpending

/--
Of what was put in line, first the single commands of the edit and then the follow-ups of each turn,
the first had their turns and the others wait. At each turn its command was the first of those that
waited.
-/
structure InOrder (edit : Command α) (p : Pass α μ) : Prop where
  issued : p.session.queues.issued = []
  turns : ∀ before d after, p.history = before ++ d :: after → ∃ waiting,
    edit.leaves ++ before.flatMap Dispatch.followUps = before.map Dispatch.given ++
      d.given :: waiting
  waiting : (∀ d ∈ p.history, d.action? ≠ some .clearAll) →
    edit.leaves ++ p.history.flatMap Dispatch.followUps =
      p.history.map Dispatch.given ++ p.session.queues.pending

end Pass

namespace Validator

variable [Scalar α] {v : Validator α μ} {scene : Scene α} {edit : Command α} {p p' : Pass α μ}
  {session : Session α} {ids : IdSource} {memory : μ}

/-- A turn takes the first in line, and puts what is issued behind the others. -/
theorem inOrder_step? (h : p.InOrder edit) (hrecorded : p.Recorded edit)
    (hstep : v.step? scene edit p = some p') : p'.InOrder edit := by
  obtain ⟨c, rest, hpending, rfl⟩ := step?_eq_some.1 hstep
  have hhistory : ((v.judged scene p c rest).settle edit (v.turn scene p c)).history =
      p.history ++ [v.turn scene p c] := Pass.history_settle ..
  -- the pass goes on, so what waits is what was put in line and had no turn
  have hwaiting := h.waiting (hrecorded.not_clearAll (by simp [hpending]))
  rw [hpending] at hwaiting
  refine ⟨Pass.issued_settle .., fun before d after hsplit => ?_, fun hclear => ?_⟩
  · rw [hhistory] at hsplit
    rcases split_concat hsplit with ⟨rfl, rfl, _⟩ | ⟨after', _, hsplit'⟩
    · exact ⟨rest, hwaiting⟩
    · exact h.turns before d after' hsplit'
  · rw [hhistory] at hclear ⊢
    have hissued : (v.judged scene p c rest).session.queues.issued = (v.turn scene p c).issued := by
      show p.session.queues.issued ++ (v.tried scene p c).issued = (v.tried scene p c).issued
      rw [h.issued, List.nil_append]
    rw [Pass.pending_settle edit hissued (hclear _ (by simp)), List.flatMap_append,
      ← List.append_assoc, hwaiting, List.map_append]
    show _ = _ ++ [c] ++ (rest ++ _)
    simp

/-- So at every point of a pass the commands had their turns in order. -/
theorem inOrder_of_reaches
    (h : v.Reaches scene edit (v.start session ids memory edit) p) : p.InOrder edit := by
  induction h with
  | refl =>
    refine ⟨by rw [queues_start], fun before d after hsplit => ?_, fun _ => ?_⟩
    · exact absurd hsplit (by simp [start])
    · rw [queues_start]
      exact List.append_nil _
  | step hreach hstep ih => exact inOrder_step? ih (recorded_of_reaches hreach) hstep

/--
**No command is lost, and none has two turns.** Whatever the rules do: the turns go to the single
commands of the edit in depth-first order, and then to what was issued in turns that kept it, in the
order of issue. At each turn its command was already in line, and a turn that clears everything is
the last one.
-/
theorem dispatched_in_order {budget : Nat} {result : Validation α μ}
    (hchecks : v.checks edit = true)
    (h : v.validate budget scene session ids memory edit = some result) :
    (∀ before d after, result.history = before ++ d :: after →
      (∃ waiting, edit.leaves ++ before.flatMap Dispatch.followUps =
        before.map Dispatch.given ++ d.given :: waiting) ∧
      (d.action? = some .clearAll → after = [])) ∧
    ((∀ d ∈ result.history, d.action? ≠ some .clearAll) →
      result.history.map Dispatch.given =
        edit.leaves ++ result.history.flatMap Dispatch.followUps) := by
  obtain ⟨q, hreach, hpending, hhistory, _⟩ := pass_of_validate hchecks h
  have horder := inOrder_of_reaches hreach
  rw [hhistory]
  refine ⟨fun before d after hsplit => ⟨horder.turns before d after hsplit, ?_⟩, fun hclear => ?_⟩
  · exact (recorded_of_reaches hreach).last_of_clearAll hsplit
  · rw [horder.waiting hclear, hpending, List.append_nil]

/-- A move of the first block is refused, and a turn of it is asked for instead. -/
def insteadOfMove : Script Float where
  name := "instead"
  entity := some 1
  issue := [.single { id := 7 } (.rotate 1 Entity.noRotation ⟨.unit .x, 1⟩)]
  reject := some .clearCurrentNoReset

/-- A move of the second block is refused, and what was asked for along with it is dropped. -/
def withoutMove : Script Float where
  name := "without"
  entity := some 2
  issue := [.single { id := 8 } (.rotate 2 Entity.noRotation ⟨.unit .x, 1⟩)]
  reject := some .clearNewlyIssued

def turnstile : Validator Float Firings where
  routing := { bindings := [⟨[.move], none, ⟨[insteadOfMove.rule 0, withoutMove.rule 1]⟩⟩] }
  config := .standard

/-- Both blocks are moved, the second one in a group of its own. -/
def bothMoved : Command Float :=
  .composite { id := 1 } "shift"
    [.single { id := 2 } (.move 1 (.splat 0) ⟨0, 0, 9⟩),
      .composite { id := 3 } "second" [.single { id := 4 } (.move 2 ⟨5, 0, 0⟩ ⟨5, 0, 9⟩)]]

/-- The first move is replaced and rejected, the second one takes back what was issued,
and the rest goes on. -/
theorem dispatched_in_order_turnstile : ∃ result : Validation Float Firings,
    turnstile.checks bothMoved = true ∧
    turnstile.validate 3 blocks .fresh {} [] bothMoved = some result ∧
    result.history.map Dispatch.action? = [some .clearCurrentNoReset,
      some .clearNewlyIssued, none] ∧
    result.history.map (fun d => d.given.id) = [2, 4, 7] ∧
    result.history.map Dispatch.given =
      bothMoved.leaves ++ result.history.flatMap Dispatch.followUps := by
  have hrun : ((turnstile.validate 3 blocks .fresh {} [] bothMoved).any fun r =>
      r.history.map Dispatch.action? == [some .clearCurrentNoReset, some .clearNewlyIssued, none] &&
        r.history.map (fun d => d.given.id) == [2, 4, 7]) = true := by decide +kernel
  obtain ⟨result, h, hrun⟩ := (Option.any_eq_true _ _).1 hrun
  simp only [Bool.and_eq_true, beq_iff_eq] at hrun
  obtain ⟨hactions, hgiven⟩ := hrun
  refine ⟨result, rfl, h, hactions, hgiven,
    (dispatched_in_order (by rfl) h).2 fun d hd hclear => ?_⟩
  have hmem : d.action? ∈ result.history.map Dispatch.action? := List.mem_map_of_mem hd
  rw [hactions, hclear] at hmem
  exact absurd hmem (by decide)

end Validator

end SceneGuard
