import SceneGuard.Pass.Basic

/-!
# Replays

Edits validated one after the other, each against the scene that the ones before it left.
-/

namespace SceneGuard

/-- One edit of a replay, with what its pass said and whether the scene took the result. -/
structure ReplayStep (α μ : Type) where
  edit : Command α
  /-- The scene the edit was validated against. -/
  scene : Scene α
  validation : Validator.Validation α μ
  /-- What became of running the outcome. -/
  applied : Except SceneError Unit

/-- A replay between two edits. -/
structure Replay (α μ : Type) where
  scene : Scene α
  session : Session α
  ids : IdSource
  memory : μ
  steps : List (ReplayStep α μ) := []

namespace Replay

variable {α μ : Type}

/-- How an edit is validated: none when it takes too many turns. -/
abbrev Check (α μ : Type) :=
  Scene α → Session α → IdSource → μ → Command α → Option (Validator.Validation α μ)

/-- Validate one edit and run its outcome, as far as the scene takes it. -/
def next? (check : Check α μ) (r : Replay α μ) (edit : Command α) : Option (Replay α μ) := do
  let v ← check r.scene r.session r.ids r.memory edit
  let (scene, applied) := r.scene.apply v.outcome.command
  return {
    scene, session := v.session, ids := v.ids, memory := v.memory
    steps := r.steps ++ [{ edit, scene := r.scene, validation := v, applied }] }

/-- Validate edits one after the other, each against the scene the one before left. -/
def run? (check : Check α μ) (r : Replay α μ) (edits : List (Command α)) : Option (Replay α μ) :=
  edits.foldlM (next? check) r

end Replay

/-- The check that lets everything through. -/
def Replay.passThrough {α μ : Type} : Replay.Check α μ := fun _ session ids memory edit =>
  some { outcome := .unchecked edit, session, ids, memory }

end SceneGuard
