import SceneGuard.Rule.Basic

/-!
# Overlaps

`collision` rejects what makes entities overlap; `proximityWarning` remarks on what brings them
close.
-/

namespace SceneGuard

namespace Rule

variable {α μ : Type} [Scalar α]

/--
Reject what makes the entity, or anything below it, overlap another entity. Commands of a drag are
only flagged unless `rejectTransient` is set, so that the drag goes on.
-/
def collision (action : FailureAction) (rejectTransient : Bool) : Rule α μ :=
  judging "collision" fun ctx c v => do
    match ← ctx.working.collide ctx.scene c ctx.config.collision.options true with
    | none => return v
    | some hits =>
      let note := .overlap (c.entityId.getD 0) hits
      if c.header.transient && !rejectTransient then return v.escalate .error note
      else return v.reject action note

/-- Remark on what brings the entity within `margin` of others. -/
def proximityWarning (margin : α) : Rule α μ :=
  judging "proximity_warning" fun ctx c v => do
    let options := { ctx.config.collision.options with margin }
    match ← ctx.working.collide ctx.scene c options false with
    | none => return v
    | some near => return v.escalate .warning (.close near)

end Rule

end SceneGuard
