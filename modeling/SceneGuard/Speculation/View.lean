import SceneGuard.Model.Scene
import SceneGuard.Speculation.WorkingSet
import SceneGuard.Verdict.Fault

/-!
# Views

The scene as one query sees it: a surrogate under test in front of the working set in front of the
live entities. The walks up and down the hierarchy end on every parent graph, since each entity can
be met once.
-/

namespace SceneGuard

/-- What one query sees, in three layers: a surrogate under test, the working set, and the live
scene. -/
structure View (α : Type) where
  scene : Scene α
  working : WorkingSet α
  /-- Surrogates hide live entities. -/
  useSurrogates : Bool := true
  /-- Hides everything else for its entity. -/
  candidate : Option (Surrogate α) := none

namespace View

variable {α : Type}

/-- Put a number into an ascending list, unless it is there. -/
def insertId (id : EntityId) : List EntityId → List EntityId
  | [] => [id]
  | i :: rest =>
    if id < i then id :: i :: rest else if id = i then i :: rest else i :: insertId id rest

/-- The numbers known to the view, ascending and each once: those of the live entities, of the
surrogates and of the surrogate under test. -/
def knownIds (v : View α) : List EntityId :=
  let surrogates := if v.useSurrogates then v.working.surrogates.keys else []
  let candidate := v.candidate.toList.map (·.id)
  (surrogates ++ candidate).foldr insertId v.scene.ids

/-- More steps than a walk can take that meets no entity twice. -/
def walkBound (v : View α) : Nat := v.scene.entities.size + v.working.surrogates.size + 2

/-- The known entities right below an entity, ascending,
out of pairs of an entity and its parent. -/
def childrenOf (links : List (EntityId × Option EntityId)) (id : EntityId) : List EntityId :=
  (links.filter fun l => l.2 = some id).map Prod.fst

/--
Collect what is below the entities of `frontier`, the last one first. The walk from `id` fails when
it meets an entity again.
-/
def collect (id : EntityId) (links : List (EntityId × Option EntityId)) :
    Nat → List EntityId → List EntityId → Except (Fault α) (List EntityId)
  | _, found, [] => .ok found
  | 0, _, _ :: _ => .error (.cyclicHierarchy id)
  | bound + 1, found, next :: frontier =>
    -- a child that was met before closes a cycle
    let children := childrenOf links next
    if children.any fun c => c = id ∨ c ∈ found then .error (.cyclicHierarchy id)
    else collect id links bound (found ++ children) (children.reverse ++ frontier)

variable [Scalar α]

/--
An entity as the working set has it. Without the use of surrogates the live entity comes first; one
that was added in this pass is a surrogate only, and is found in any case.
-/
def settled (v : View α) (id : EntityId) : Except (Fault α) (Surrogate α) :=
  let surrogate := v.working.get? id
  let live := (v.scene.get? id).map Surrogate.ofEntity
  -- either way the other one is the last resort
  let found := if v.useSurrogates then surrogate <|> live else live <|> surrogate
  match found with
  | some s => .ok s
  | none => .error (.entityNotFound id)

/-- An entity as this query sees it: the surrogate under test for its own entity, else what is
settled. -/
def state (v : View α) (id : EntityId) : Except (Fault α) (Surrogate α) :=
  match v.candidate with
  | some c => if c.id = id then .ok c else v.settled id
  | none => v.settled id

/--
The parent chain from `current` on, after the entities of `chain`. The walk from `id` fails at the
first entity it meets again, and at the first that is nowhere.
-/
def climb (v : View α) (id : EntityId) :
    Nat → List EntityId → Option EntityId → Except (Fault α) (List EntityId)
  | _, chain, none => .ok chain
  | 0, _, some _ => .error (.cyclicHierarchy id)
  | bound + 1, chain, some c =>
    if c = id ∨ c ∈ chain then .error (.cyclicHierarchy id)
    else
      match v.state c with
      | .error f => .error f
      | .ok s => v.climb id bound (chain ++ [c]) s.parent

/-- The parent chain of an entity, nearest first and without the entity itself. -/
def ancestors (v : View α) (id : EntityId) : Except (Fault α) (List EntityId) := do
  let s ← v.state id
  v.climb id v.walkBound [] s.parent

/-- Everything known below an entity, however deep, without the entity itself. -/
def descendants (v : View α) (id : EntityId) : Except (Fault α) (List EntityId) := do
  let links ← v.knownIds.mapM fun other => do
    let s ← v.state other
    return (other, s.parent)
  collect id links v.walkBound [] [id]

/-- Placement of an entity in the world: the local placements from the root down,
one after the other. -/
def worldTransform (v : View α) (id : EntityId) : Except (Fault α) (Transform α) := do
  let own ← v.state id
  let above ← (← v.ancestors id).mapM v.state
  let world : Transform α :=
    (own :: above).reverse.foldl (fun t s => t.comp s.localTransform) .identity
  if world.isFinite then return world else throw (.degenerateTransform id)

/-- The placed box of an entity; none when it is disabled. -/
def worldBounds (v : View α) (id : EntityId) (extended : Bool) :
    Except (Fault α) (Option (Obb α)) := do
  let s ← v.state id
  if s.enabled then
    let world ← v.worldTransform id
    return some ((s.bounds extended).transform world)
  else return none

end View

end SceneGuard
