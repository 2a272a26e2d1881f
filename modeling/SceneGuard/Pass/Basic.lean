import SceneGuard.Model.Reset
import SceneGuard.Pass.Queues
import SceneGuard.Rule.Routing

/-!
# Passes

A pass checks one edit. Its single commands are checked one after the other, each as if those
approved before it had been applied; what survives is run as one forced composite. A rejection
discards as much as its failure action says and puts the reset block of the edit in line, once.
-/

namespace SceneGuard

/-- What checks edits: rules by kind of command, and the settings they go by. -/
structure Validator (α μ : Type) where
  routing : Routing α μ
  config : Config α

/-- What a pass works on. It is kept between passes and begun anew by each. -/
structure Session (α : Type) where
  working : WorkingSet α
  queues : Queues α := {}

/-- What a pass tells about an edit, and what it hands out to be run. -/
structure Outcome (α : Type) where
  /-- What is to be run. -/
  command : Command α
  /-- No command was rejected. -/
  approved : Bool := true
  severity : Severity := .ok
  notes : List (Note α) := []
  /-- The first fault of the pass. -/
  fault : Option (Fault α) := none

/-- The record of one turn: a command, what its rules made of it, and how it ended. -/
structure Dispatch (α : Type) where
  /-- The command as it was taken from the queue. -/
  given : Command α
  /-- The command as its rules left it. -/
  left : Command α
  issued : List (Command α) := []
  verdict : Except (Fault α) (Verdict α)

/-- A pass between two commands. -/
structure Pass (α μ : Type) where
  session : Session α
  ids : IdSource
  memory : μ
  severity : Severity := .ok
  failed : Bool := false
  notes : List (Note α) := []
  fault : Option (Fault α) := none
  /-- The reset block is in line. -/
  resetIssued : Bool := false
  history : List (Dispatch α) := []

namespace Session

variable {α : Type} [Scalar α]

/-- The session before the first pass. -/
def fresh : Session α := { working := { epsilon := 0 } }

/-- The session at the start of a pass: nothing is left of the pass before. -/
def renew (s : Session α) (epsilon : α) : Session α :=
  { working := { s.working.restoreAll.clear with epsilon }, queues := s.queues.clear }

end Session

namespace Outcome

/-- The outcome of an edit that is not checked: it is run as it came. -/
def unchecked {α : Type} (c : Command α) : Outcome α := { command := c }

end Outcome

namespace Pass

variable {α μ : Type}

/--
Discard what the failure action says, and put the reset block of the edit in line where the action
wants it and it is not there yet. With everything else `clearAll` discards the block too, and so it
goes in again.
-/
def rollBack (edit : Command α) (action : FailureAction) (p : Pass α μ) : Pass α μ :=
  let p := match action with
    | .clearAll =>
      let session : Session α :=
        { working := p.session.working.restoreAll.clear, queues := p.session.queues.clear }
      { p with session, resetIssued := false }
    | .clearCurrent | .clearCurrentNoReset =>
      { p with session := { p.session with queues := p.session.queues.splice } }
    | .clearNewlyIssued =>
      { p with session := { p.session with queues := p.session.queues.clearIssued } }
  let p := { p with failed := true }
  if action.resetsScene && !p.resetIssued then
    -- the block is built from the edit as it came, whatever its rules made of it
    let (block, ids) := edit.resetBlock p.ids
    let queues := block.foldl Queues.addApproved p.session.queues
    { p with session := { p.session with queues }, ids, resetIssued := true }
  else p

/-- The pass after a turn: approved commands are put in line, and others roll back. -/
def settle (edit : Command α) (p : Pass α μ) (d : Dispatch α) : Pass α μ :=
  let p := { p with history := p.history ++ [d] }
  match d.verdict with
  | .ok v =>
    let p := { p with severity := p.severity.raise v.severity }
    let p :=
      if v.approved then
        { p with session := { p.session
          with queues := (p.session.queues.addApproved d.left).splice } }
      else p.rollBack edit v.failureAction
    { p with notes := p.notes ++ v.notes }
  | .error f =>
    -- what cannot be checked is rejected with everything else of the pass
    let notes := p.notes ++ [Note.fault f]
    rollBack edit .clearAll { p with severity := .error, notes, fault := p.fault <|> some f }

/-- The outcome at the end of a pass: the approved commands as one composite, under a number of
its own. -/
def outcome (edit : Command α) (p : Pass α μ) : Outcome α × IdSource :=
  let (c, ids) := Command.group p.ids ("validated " ++ edit.label) p.session.queues.approved
  -- all of it has been checked: when it is run no rule is asked again
  ({ command := c.withHeader { c.header with forced := true }
     approved := !p.failed
     severity := p.severity
     notes := p.notes
     fault := p.fault }, ids)

end Pass

namespace Validator

variable {α μ : Type} [Scalar α]

/-- The checklist that a command has to pass; none for a forced one. -/
def checklistFor? (v : Validator α μ) (c : Command α) : Option (Checklist α μ) :=
  if c.header.forced then none else v.routing.checklistFor? c

/-- Run the rules for a command on trial. A command without rules is approved. -/
def judge (v : Validator α μ) (scene : Scene α) (t : Trial α μ) :
    Trial α μ × Except (Fault α) (Verdict α) :=
  match v.checklistFor? t.command with
  | some l => l.evaluate scene v.config t
  | none => (t, .ok .approval)

/--
The working set after a trial, and the verdict. Changes stay with an approved command, together with
its own effect; a command whose effect cannot be computed is at fault after all.
-/
def conclude (scene : Scene α) (t : Trial α μ) (verdict : Except (Fault α) (Verdict α)) :
    WorkingSet α × Except (Fault α) (Verdict α) :=
  match verdict with
  | .error f => (t.changes.drop, .error f)
  | .ok r =>
    if r.approved then
      -- the command's own effect comes last, on top of what its rules staged
      match t.changes.working.surrogateFor scene t.command with
      | .error f => (t.changes.drop, .error f)
      | .ok none => (t.changes.keep, .ok r)
      | .ok (some s) => ((t.changes.stage s).keep, .ok r)
    else (t.changes.drop, .ok r)

/-- Give the command that has been pending longest its turn; none when nothing is pending. -/
def step? (v : Validator α μ) (scene : Scene α) (edit : Command α) (p : Pass α μ) :
    Option (Pass α μ) :=
  match p.session.queues.next? with
  | none => none
  | some (c, queues) =>
    -- the command meets the working set as the approved ones before it left it
    let trial : Trial α μ :=
      { command := c, changes := { working := p.session.working }, ids := p.ids,
        memory := p.memory }
    let (t, verdict) := v.judge scene trial
    let (working, verdict) := conclude scene t verdict
    let queues := t.issued.foldl Queues.issue queues
    let p := { p with session := { working, queues }, ids := t.ids, memory := t.memory }
    some (p.settle edit { given := c, left := t.command, issued := t.issued, verdict })

/-- Turn after turn until nothing is pending; none when `budget` turns are not enough. -/
def run (v : Validator α μ) (scene : Scene α) (edit : Command α) :
    Nat → Pass α μ → Option (Pass α μ)
  | 0, p => if p.session.queues.pending.isEmpty then some p else none
  | budget + 1, p =>
    match v.step? scene edit p with
    | none => some p
    | some p => v.run scene edit budget p

/-- The pass before its first turn, with the single commands of the edit in line. -/
def start (v : Validator α μ) (session : Session α) (ids : IdSource) (memory : μ)
    (edit : Command α) : Pass α μ :=
  let session := session.renew v.config.collision.epsilon
  let queues := edit.leaves.foldl Queues.addPending session.queues
  { session := { session with queues }, ids, memory }

/-- More turns than a pass takes in any time one would wait for. -/
def ampleBudget : Nat := 0x1000000000000000

/-- What is left when an edit has been checked: its outcome, and what the next pass begins with. -/
structure Validation (α μ : Type) where
  outcome : Outcome α
  session : Session α
  ids : IdSource
  memory : μ
  history : List (Dispatch α) := []
  /-- What the status bar is told at the end; nothing when nothing was checked. -/
  report : Option Severity := none

/-- Whether an edit is checked at all. -/
def checks (v : Validator α μ) (edit : Command α) : Bool :=
  v.config.ruleChecking && !edit.header.forced

/-- Check an edit in at most `budget` turns; none when they are not enough. -/
def validate (v : Validator α μ) (budget : Nat) (scene : Scene α) (session : Session α)
    (ids : IdSource) (memory : μ) (edit : Command α) : Option (Validation α μ) :=
  if !v.checks edit then
    some { outcome := .unchecked edit, session, ids, memory }
  else
    (v.run scene edit budget (v.start session ids memory edit)).map fun p =>
      -- nothing is on trial any more
      let p := { p with session := { p.session with working := p.session.working.restoreAll } }
      let (outcome, ids) := p.outcome edit
      { outcome, session := p.session, ids, memory := p.memory, history := p.history,
        report := some p.severity }

end Validator

end SceneGuard
