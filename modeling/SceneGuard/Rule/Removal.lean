import SceneGuard.Rule.Basic

/-!
# Removals

`cascadeRemove` has the children of a removed entity removed too.
-/

namespace SceneGuard

namespace Rule

variable {α μ : Type}

/-- An entity that must be in the live scene. -/
def requireLive (scene : Scene α) (id : EntityId) : Except (Fault α) (Entity α) :=
  match scene.get? id with
  | some e => .ok e
  | none => .error (.entityNotFound id)

def removalRole : EntityKind → Role
  | .segment => .segment
  | .vertex => .vertex
  | .model | .zone => .entity

/-- One removal for each of the entities, in order. The first that is missing ends it. -/
def removals (scene : Scene α) (ids : IdSource) : List EntityId →
    Except (Fault α) (List (Command α)) × IdSource
  | [] => (.ok [], ids)
  | id :: rest =>
    match requireLive scene id with
    | .error f => (.error f, ids)
    | .ok e =>
      let (c, ids) := Command.ofEdit ids (.remove (removalRole e.kind) id)
      let (more, ids) := removals scene ids rest
      (more.map (c :: ·), ids)

/--
The entities and all that is below them in the live scene, as pairs of number and entity: each
before what is below it, and of siblings the last first. An entity that several lists name comes
once for each of them. `depth` bounds how far down the walk goes, not how much it meets.
-/
def subtree (scene : Scene α) : Nat → List EntityId → Except (Fault α) (List (EntityId × Entity α))
  | _, [] => .ok []
  | 0, id :: _ => .error (.cyclicHierarchy id)
  | depth + 1, ids => do
    let parts ← ids.reverse.mapM fun id => do
      let e ← requireLive scene id
      let below ← subtree scene depth e.children
      return (id, e) :: below
    return parts.flatten

variable [Scalar α]

/-- The disabled surrogates of those entities that are not disabled yet. -/
def disabling (w : WorkingSet α) (entities : List (EntityId × Entity α)) : List (Surrogate α) :=
  entities.filterMap fun (id, e) =>
    -- what the pass made of the entity, where it made anything of it
    let s := (w.get? id).getD (.ofEntity e)
    if s.enabled then some s.disabled else none

/--
With an entity goes everything below it. The direct children are removed by commands that are
checked later in the pass and so reach further down; the whole subtree is disabled at once, so that
commands checked before those do not collide with what is about to go.
-/
def cascadeRemove : Rule α μ where
  name := "cascade_remove"
  process ctx ids memory c v :=
    match if c.kind.isRemove then c.entityId.bind ctx.scene.get? else none with
    | none => { command := c, verdict := .ok v, ids, memory }
    | some e =>
      match removals ctx.scene ids e.children with
      | (.error f, ids) => { command := c, verdict := .error f, ids, memory }
      | (.ok issued, ids) =>
        -- a way down names each live entity at most once, so it is no deeper than there are
        -- entities, unless a child list leads back to itself:
        -- such a way has no end, and a fault is the answer
        match subtree ctx.scene (ctx.scene.entities.size + 1) e.children with
        | .error f => { command := c, verdict := .error f, ids, memory }
        | .ok below =>
          { command := c, verdict := .ok v, staged := disabling ctx.working below,
            issued, ids, memory }

end Rule

end SceneGuard
