import SceneGuard.Rule.Basic

/-!
# Snapping

Moved and added entities are put on the points of a grid.
-/

namespace SceneGuard

namespace Rule

variable {α μ : Type} [Scalar α]

def snap (step : α) (p : Vec3 α) : Except (Fault α) (Vec3 α) :=
  if p.all Scalar.isFinite then .ok (p.map fun x => Scalar.round (x / step) * step)
  else .error (.unsnappable p)

/-- The edit with the position it sets snapped to the grid. -/
def snapEdit (step : α) : Edit α → Except (Fault α) (Edit α)
  | .move id before after => return .move id before (← snap step after)
  | .add role e => return .add role { e with position := ← snap step e.position }
  | e => return e

/-- Put moved and added entities on a grid. Without a positive step there is none. -/
def gridSnap (step : α) : Rule α μ where
  name := Fault.snappingRule
  process _ ids memory c v :=
    match c with
    | .single h e =>
      if step ≤ 0 then { command := c, verdict := .ok v, ids, memory }
      else
        match snapEdit step e with
        | .ok e => { command := .single h e, verdict := .ok v, ids, memory }
        | .error f => { command := c, verdict := .error f, ids, memory }
    | .composite .. => { command := c, verdict := .ok v, ids, memory }

end Rule

end SceneGuard
