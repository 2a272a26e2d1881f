import SceneGuard.Model.Command

/-!
# Queues

Where the commands of a pass wait: pending ones to be checked, approved ones to be run, and those
that rules issued for the command being checked.
-/

namespace SceneGuard

/-- Three lines of commands, each in the order in which they came. -/
structure Queues (α : Type) where
  pending : List (Command α) := []
  approved : List (Command α) := []
  issued : List (Command α) := []

namespace Queues

variable {α : Type}

/-- Put a command at the end of those to be checked. -/
def addPending (q : Queues α) (c : Command α) : Queues α := { q with pending := q.pending ++ [c] }

/-- Put a command at the end of those to be run. -/
def addApproved (q : Queues α) (c : Command α) : Queues α :=
  { q with approved := q.approved ++ [c] }

/-- Put a command at the end of those issued in this turn. -/
def issue (q : Queues α) (c : Command α) : Queues α := { q with issued := q.issued ++ [c] }

/-- Take the command that has been pending longest. -/
def next? (q : Queues α) : Option (Command α × Queues α) :=
  match q.pending with
  | [] => none
  | c :: rest => some (c, { q with pending := rest })

/-- Take the first command with a number out of a list. -/
def take? (id : CommandId) : List (Command α) → Option (Command α × List (Command α))
  | [] => none
  | c :: rest => if c.id = id then some (c, rest) else (take? id rest).map fun (d, r) => (d, c :: r)

/-- Take a command out of the queue it waits in. -/
def remove? (q : Queues α) (id : CommandId) : Option (Command α × Queues α) :=
  match take? id q.pending, take? id q.approved, take? id q.issued with
  | some (c, rest), _, _ => some (c, { q with pending := rest })
  | none, some (c, rest), _ => some (c, { q with approved := rest })
  | none, none, some (c, rest) => some (c, { q with issued := rest })
  | none, none, none => none

/-- Issued commands become pending, behind those that are. -/
def splice (q : Queues α) : Queues α := { q with pending := q.pending ++ q.issued, issued := [] }

/-- Drop what was issued in this turn. -/
def clearIssued (q : Queues α) : Queues α := { q with issued := [] }

/-- Drop everything that waits. -/
def clear (_ : Queues α) : Queues α := {}

/-- Whether nothing waits anywhere. -/
def isEmpty (q : Queues α) : Bool := q.pending.isEmpty && q.approved.isEmpty && q.issued.isEmpty

end Queues

end SceneGuard
