import SceneGuard.Verdict.Note
import SceneGuard.Verdict.Severity

/-!
# Verdicts

What the rules of a checklist have decided so far on one command, and how much of the edit falls
with the command if it ends up rejected.
-/

namespace SceneGuard

/-- What a rejection discards. -/
inductive FailureAction where
  /-- Everything queued and approved; then the scene is restored. -/
  | clearAll
  /-- The command; what was issued for it takes its place. The scene is restored. -/
  | clearCurrent
  /-- As `clearCurrent`, and the scene is left alone. -/
  | clearCurrentNoReset
  /-- The command and what was issued for it. The scene is restored. -/
  | clearNewlyIssued
  deriving DecidableEq, Repr

namespace FailureAction

/-- Every failure action. -/
def all : List FailureAction := [.clearAll, .clearCurrent, .clearCurrentNoReset, .clearNewlyIssued]

/-- The name of a failure action in files. -/
def name : FailureAction → String
  | .clearAll => "clear_all"
  | .clearCurrent => "clear_current"
  | .clearCurrentNoReset => "clear_current_no_reset"
  | .clearNewlyIssued => "clear_newly_issued"

/-- The failure action of a name; none for a word that names none. -/
def ofName? (s : String) : Option FailureAction := all.find? fun k => k.name == s

/-- Whether the action has reset commands run. -/
def resetsScene (a : FailureAction) : Bool := a ≠ .clearCurrentNoReset

end FailureAction

/-- The verdict handed from rule to rule. -/
structure Verdict (α : Type) where
  approved : Bool := false
  severity : Severity := .ok
  /-- What a rejection discards. -/
  failureAction : FailureAction := .clearAll
  /-- In the order of the rules. -/
  notes : List (Note α) := []
  deriving DecidableEq, BEq

namespace Verdict

variable {α : Type}

/-- Approval, before any rule has spoken. -/
def approval : Verdict α := { approved := true }

/-- Turn the verdict into a rejection with this action, whatever it was. The notes before it stay,
and the severity is an error from here on. -/
def reject (v : Verdict α) (action : FailureAction) (note : Note α) : Verdict α :=
  { approved := false
    severity := v.severity.raise .error
    failureAction := action
    notes := v.notes ++ [note] }

/-- Raise the severity and leave the decision as it is. -/
def escalate (v : Verdict α) (severity : Severity) (note : Note α) : Verdict α :=
  { v with severity := v.severity.raise severity, notes := v.notes ++ [note] }

end Verdict

end SceneGuard
