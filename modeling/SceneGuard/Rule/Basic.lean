import SceneGuard.Config.Basic
import SceneGuard.Speculation.Transaction

/-!
# Rules

A rule is a function of what it is shown. What it wants to happen besides its verdict (surrogates to
stage, commands to issue, a changed command) is part of its answer, so a rule cannot do anything
else. `μ` is the type of what rules remember from one command to the next.
-/

namespace SceneGuard

/-- What a rule can look at beside the command: the working set has the changes staged so far. -/
structure RuleContext (α : Type) where
  scene : Scene α
  working : WorkingSet α
  config : Config α

/-- All that a rule can bring about: the command as it leaves it, its verdict, and what it wants
staged and issued. -/
structure RuleAnswer (α μ : Type) where
  command : Command α
  verdict : Except (Fault α) (Verdict α)
  /-- Changes that later rules see; they stay when the command is approved. -/
  staged : List (Surrogate α) := []
  /-- Commands to be checked later in the same pass. -/
  issued : List (Command α) := []
  ids : IdSource
  memory : μ

/-- A rule by name. It is handed the verdict of the rules before it and answers with its own. -/
structure Rule (α μ : Type) where
  name : String
  process : RuleContext α → IdSource → μ → Command α → Verdict α → RuleAnswer α μ

namespace Rule

variable {α μ : Type}

/-- A rule that judges the command and does nothing else. -/
def judging (name : String)
    (judge : RuleContext α → Command α → Verdict α → Except (Fault α) (Verdict α)) : Rule α μ where
  name := name
  process ctx ids memory c v := { command := c, verdict := judge ctx c v, ids, memory }

end Rule

/-- The state of one command while the rules of a checklist run. -/
structure Trial (α μ : Type) where
  command : Command α
  changes : Transaction α
  issued : List (Command α) := []
  ids : IdSource
  memory : μ

namespace Trial

variable {α μ : Type}

/-- The trial after an answer, whatever the verdict: an answer at fault is absorbed as well. -/
def absorb (t : Trial α μ) (a : RuleAnswer α μ) : Trial α μ :=
  { command := a.command
    changes := t.changes.stageAll a.staged
    issued := t.issued ++ a.issued
    ids := a.ids
    memory := a.memory }

end Trial

end SceneGuard
