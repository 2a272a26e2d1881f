import SceneGuard.Rule.Basic

/-!
# Superseded commands

A command that was superseded before it ran is dropped, and the scene stays as it is.
-/

namespace SceneGuard

namespace Rule

variable {α μ : Type}

/-- Reject a superseded command and leave the scene alone. -/
def dieCheck : Rule α μ :=
  judging "die_check" fun _ c v =>
    .ok (if c.header.dying then v.reject .clearCurrentNoReset (.superseded c.id) else v)

end Rule

end SceneGuard
