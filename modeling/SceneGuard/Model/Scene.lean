import SceneGuard.Model.Command

/-!
# Scenes

The entities by number, with links from parents to children and back. An edit is applied as a whole
or refused (`Scene.edit`); a composite applies its members one after the other and stops at the
first that is refused, so what came before it stays (`Scene.apply`).
-/

namespace SceneGuard

/-- Why a scene refuses an edit. -/
inductive SceneError where
  | entityNotFound (id : EntityId)
  | duplicateEntity (id : EntityId)
  /-- The entity would become its own ancestor. -/
  | cycle (entity parent : EntityId)
  deriving DecidableEq, Repr

namespace SceneError

/-- The refusal in words, as the program prints it. -/
def message : SceneError → String
  | .entityNotFound id => s!"entity not found: {id}"
  | .duplicateEntity id => s!"entity already exists: {id}"
  | .cycle entity parent => s!"reparenting {entity} under {parent} would create a cycle"

end SceneError

/-- The entities of a scene by number. Their links are data like any other: that they agree, and
that ways up end, are properties a scene may have or not. -/
structure Scene (α : Type) where
  entities : Table EntityId (Entity α) := .empty
  /-- The zone that edits are confined to; none for the whole scene. -/
  activeZone : Option EntityId := none
  deriving DecidableEq, BEq

namespace Scene

variable {α : Type}

instance : Inhabited (Scene α) := ⟨{}⟩

/-- The entity with a number; none when there is none. -/
def get? (s : Scene α) (id : EntityId) : Option (Entity α) := s.entities.get? id

/-- The entity with a number, or the refusal that it is not there. -/
def require (s : Scene α) (id : EntityId) : Except SceneError (Entity α) :=
  match s.get? id with
  | some e => .ok e
  | none => .error (.entityNotFound id)

/-- Change an entity in place. Without the entity nothing happens. -/
def modify (s : Scene α) (id : EntityId) (f : Entity α → Entity α) : Scene α :=
  { s with entities := s.entities.modify id f }

/-- The numbers of all entities, ascending. -/
def ids (s : Scene α) : List EntityId := s.entities.keys

/-- Add an entity and list it with its parent. -/
def insert (s : Scene α) (e : Entity α) : Except SceneError (Scene α) := do
  if s.entities.contains e.id then
    throw (.duplicateEntity e.id)
  let s ← match e.parent with
    | none => pure s
    | some p =>
      let _ ← s.require p
      -- a list that has the number already is left as it is
      pure (s.modify p fun q =>
        if q.children.contains e.id then q else { q with children := q.children ++ [e.id] })
  return { s with entities := s.entities.insert e.id e }

/-- Take an entity out. Its parent gets its children, which stay where they are relative to it. -/
def remove (s : Scene α) (id : EntityId) : Except SceneError (Entity α × Scene α) := do
  let e ← s.require id
  let s : Scene α := { s with entities := s.entities.erase id }
  let s := match e.parent with
    | none => s
    | some p => s.modify p fun q => { q with children := q.children.filter (· ≠ id) ++ e.children }
  -- the children move up, in the order of their list
  let s :
    Scene α := e.children.foldl (fun s c => s.modify c fun q => { q with parent := e.parent }) s
  let zone := if s.activeZone = some id then none else s.activeZone
  return (e, { s with activeZone := zone })

/-- Whether `ancestor` is met within `steps` entities on the way up from `start`. -/
def meets (s : Scene α) (ancestor : EntityId) : Nat → Option EntityId → Bool
  | 0, _ => false
  | _, none => false
  | steps + 1, some c => c == ancestor || s.meets ancestor steps ((s.get? c).bind (·.parent))

/-- Whether `ancestor` is `id` itself or above it. A way up meets each entity once,
and one number more. -/
def isAncestor (s : Scene α) (ancestor id : EntityId) : Bool :=
  s.meets ancestor (s.entities.size + 1) (some id)

/-- Hang an entity under another parent, at a position relative to it. -/
def reparent (s : Scene α) (id : EntityId) (target : Attachment α) :
    Except SceneError (Scene α) := do
  if let some p := target.parent then
    let _ ← s.require p
    if s.isAncestor id p then
      throw (.cycle id p)
  let e ← s.require id
  -- under the same parent the entity keeps its place in the list
  if e.parent = target.parent then
    return s.modify id fun e => { e with position := target.position }
  let s := match e.parent with
    | none => s
    | some p => s.modify p fun q => { q with children := q.children.filter (· ≠ id) }
  let s := match target.parent with
    | none => s
    | some p => s.modify p fun q => { q with children := q.children ++ [id] }
  return s.modify id fun e => { e with parent := target.parent, position := target.position }

/-- Change an entity in place, or refuse when it is not there. -/
def update (s : Scene α) (id : EntityId) (f : Entity α → Entity α) :
    Except SceneError (Scene α) := do
  let _ ← s.require id
  return s.modify id f

/-- Apply an edit by its values after; the values before are not looked at. -/
def edit (s : Scene α) : Edit α → Except SceneError (Scene α)
  | .add _ e => s.insert e
  | .remove _ id => do
    let (_, s) ← s.remove id
    return s
  | .move id _ after => s.update id fun e => { e with position := after }
  | .rotate id _ after => s.update id fun e => { e with rotation := after }
  | .scale id _ after =>
    s.update id fun e => { e with position := after.position, scale := after.scale }
  | .reparent id _ after => s.reparent id after
  | .changeProperty id key _ after => s.update id fun e => e.setProperty key after

mutual

/-- Apply a command: the scene after it, and whether all of it was applied. -/
def apply (s : Scene α) : Command α → Scene α × Except SceneError Unit
  | .single _ e =>
    match s.edit e with
    | .ok s => (s, .ok ())
    | .error x => (s, .error x)
  | .composite _ _ ms => applyAll s ms

/-- Apply commands in order, up to the first that is refused. -/
def applyAll (s : Scene α) : List (Command α) → Scene α × Except SceneError Unit
  | [] => (s, .ok ())
  | c :: cs =>
    match apply s c with
    | (s, .ok ()) => applyAll s cs
    | (s, .error x) => (s, .error x)

end

end Scene

end SceneGuard
