import SceneGuard.Rule.Basic

/-!
# Scripted rules

Rules described by data, for trying out routings and passes: which commands a rule answers to, how
often, and what it does then. How often each has fired is what scripted rules remember.
-/

namespace SceneGuard

/-- How often each scripted rule has fired, by its place among them. -/
abbrev Firings := List Nat

namespace Firings

/-- How often the script at a place has fired. -/
def count (f : Firings) (i : Nat) : Nat := f.getD i 0

/-- One more firing at a place. Places that have not been heard of yet count as never fired. -/
def fire (f : Firings) (i : Nat) : Firings :=
  if i < f.length then f.set i (f.count i + 1)
  else f ++ List.replicate (i - f.length) 0 ++ [1]

end Firings

/-- What a scripted rule answers to, and what it does then. Whatever is left out is not done. -/
structure Script (α : Type) where
  name : String
  /-- Answer to this kind of command only. -/
  kind : Option String := none
  /-- Answer to commands for this entity only. -/
  entity : Option EntityId := none
  /-- Fire at most this often. -/
  limit : Nat := 1
  issue : List (Command α) := []
  stage : List (Entity α) := []
  /-- Where moves are sent instead. -/
  moveTo : Option (Vec3 α) := none
  error : Option String := none
  reject : Option FailureAction := none
  escalate : Option Severity := none
  setApproved : Option Bool := none
  setSeverity : Option Severity := none
  note : String := ""

namespace Script

variable {α : Type}

/-- Whether a command is of the kind and for the entity that the script names, if it names them. -/
def answersTo (s : Script α) (c : Command α) : Bool :=
  s.kind.all (· == c.kind.name) && (s.entity.isNone || s.entity == c.entityId)

/-- The command, sent elsewhere if it is a move. -/
def redirect (s : Script α) (c : Command α) : Command α :=
  match s.moveTo, c with
  | some target, .single h (.move id before _) => .single h (.move id before target)
  | _, c => c

/-- The verdict after the script's own: a rejection first, then an escalation. -/
def judge (s : Script α) (v : Verdict α) : Verdict α :=
  let v := match s.reject with
    | some action => v.reject action (.remark s.note)
    | none => v
  let v := match s.escalate with
    | some severity => v.escalate severity (.remark s.note)
    | none => v
  -- values that are set outright go over what the steps before said
  { v with
    approved := s.setApproved.getD v.approved
    severity := s.setSeverity.getD v.severity }

/-- The rule that a script describes; `place` is its place among the scripts. -/
def rule [Scalar α] (s : Script α) (place : Nat) : Rule α Firings where
  name := s.name
  process _ ids fired c v :=
    if !s.answersTo c || s.limit ≤ fired.count place
      then { command := c, verdict := .ok v, ids, memory := fired }
    else
      { command := s.redirect c
        verdict := match s.error with
          | some reason => .error (.ruleFailed s.name reason)
          | none => .ok (s.judge v)
        staged := s.stage.map .ofEntity
        issued := s.issue
        ids
        memory := fired.fire place }

end Script

end SceneGuard
