import SceneGuard.Rule.Basic

/-!
# Checklists

Rules that run one after the other. All of them run, also after a veto, and the last verdict stands;
the severity alone never falls below what an earlier rule said. A fault ends the run.
-/

namespace SceneGuard

/-- Rules in the order in which they run, each with a name of its own. -/
structure Checklist (α μ : Type) where
  rules : List (Rule α μ) := []

namespace Checklist

variable {α μ : Type}

/-- Put a rule in the place of the one with its name, or at the end. -/
def replace (r : Rule α μ) : List (Rule α μ) → List (Rule α μ)
  | [] => [r]
  | q :: rest => if q.name = r.name then r :: rest else q :: replace r rest

/-- Add a rule. One with the same name gives its place to it. -/
def add (l : Checklist α μ) (r : Rule α μ) : Checklist α μ := ⟨replace r l.rules⟩

/-- Take a rule out by name; none when it is not there. -/
def remove? (l : Checklist α μ) (name : String) : Option (Checklist α μ) :=
  if l.rules.any fun r => r.name == name then some ⟨l.rules.eraseP fun r => r.name == name⟩
  else none

/-- The names of the rules, in the order in which they run. -/
def names (l : Checklist α μ) : List String := l.rules.map (·.name)

/-- Run rules one after the other on a command, from a verdict on. -/
def run (scene : Scene α) (config : Config α) :
    List (Rule α μ) → Trial α μ → Verdict α → Trial α μ × Except (Fault α) (Verdict α)
  | [], t, v => (t, .ok v)
  | r :: rest, t, v =>
    let answer := r.process ⟨scene, t.changes.working, config⟩ t.ids t.memory t.command v
    match answer.verdict with
    | .error f => (t.absorb answer, .error f)
    | .ok v' =>
      run scene config rest (t.absorb answer) { v' with severity := v'.severity.raise v.severity }

/-- Run all rules on a trial, from approval on. -/
def evaluate (l : Checklist α μ) (scene : Scene α) (config : Config α) (t : Trial α μ) :
    Trial α μ × Except (Fault α) (Verdict α) :=
  run scene config l.rules t .approval

end Checklist

end SceneGuard
