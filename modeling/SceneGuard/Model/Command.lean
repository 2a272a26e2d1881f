import SceneGuard.Model.Entity

/-!
# Commands

A command asks for an edit of the scene, or groups other commands. An edit carries the values before
and after it, so it can be turned around in place.
-/

namespace SceneGuard

/-- What an add or a remove is about. -/
inductive Role where
  | entity
  | segment
  | vertex
  deriving DecidableEq, Repr

namespace Role

/-- Every role, in the order of the command kinds. -/
def all : List Role := [.entity, .segment, .vertex]

/-- The word for a role in the name of a kind. -/
def name : Role → String
  | .entity => "entity"
  | .segment => "segment"
  | .vertex => "vertex"

end Role

/-- What a scale edit sets: scaling about an edge also moves the entity. -/
structure Scaling (α : Type) where
  position : Vec3 α
  scale : Vec3 α
  deriving DecidableEq, BEq, Repr

/-- What a reparent edit sets: the parent, and the position relative to it. -/
structure Attachment (α : Type) where
  parent : Option EntityId
  position : Vec3 α
  deriving DecidableEq, BEq, Repr

/-- A change of the scene with the values before and after it. An edit is applied by its values
after; those before serve to take it back (`Edit.reset`). -/
inductive Edit (α : Type) where
  | add (role : Role) (entity : Entity α)
  | remove (role : Role) (id : EntityId)
  | move (id : EntityId) (before after : Vec3 α)
  | rotate (id : EntityId) (before after : AxisAngle α)
  | scale (id : EntityId) (before after : Scaling α)
  | reparent (id : EntityId) (before after : Attachment α)
  | changeProperty (id : EntityId) (key : PropertyKey) (before after : PropertyValue α)
  deriving DecidableEq, BEq

/-- What a command does, as bindings and files tell commands apart. -/
inductive CommandKind where
  | add (role : Role)
  | remove (role : Role)
  | move
  | rotate
  | scale
  | reparent
  | changeProperty
  | composite
  deriving DecidableEq, Repr

namespace CommandKind

/-- Every kind, in the order in which files count them. -/
def all : List CommandKind :=
  [.add .entity, .remove .entity, .add .segment, .remove .segment, .add .vertex, .remove .vertex,
    .move, .rotate, .scale, .reparent, .changeProperty, .composite]

/-- The name of a kind in files. -/
def name : CommandKind → String
  | .add role => "add_" ++ role.name
  | .remove role => "remove_" ++ role.name
  | .move => "move_entity"
  | .rotate => "rotate_entity"
  | .scale => "scale_entity"
  | .reparent => "reparent_entity"
  | .changeProperty => "change_property"
  | .composite => "composite"

/-- The kind of a name; none for a word that names none. -/
def ofName? (s : String) : Option CommandKind := all.find? fun k => k.name == s

/-- Whether the entity of the command goes away with it. -/
def isRemove : CommandKind → Bool
  | .remove _ => true
  | _ => false

/-- The kinds that have no values to go back to. -/
def isAddOrRemove : CommandKind → Bool
  | .add _ | .remove _ => true
  | _ => false

end CommandKind

namespace Edit

variable {α : Type}

/-- The kind of the command that asks for an edit. -/
def kind : Edit α → CommandKind
  | .add role _ => .add role
  | .remove role _ => .remove role
  | .move .. => .move
  | .rotate .. => .rotate
  | .scale .. => .scale
  | .reparent .. => .reparent
  | .changeProperty .. => .changeProperty

/-- The entity an edit is about; for an add, the one it brings. -/
def entityId : Edit α → EntityId
  | .add _ entity => entity.id
  | .remove _ id | .move id .. | .rotate id .. | .scale id .. | .reparent id ..
  | .changeProperty id .. => id

/-- The property an edit sets, if it sets one. -/
def propertyKey : Edit α → Option PropertyKey
  | .changeProperty _ key _ _ => some key
  | _ => none

/-- The edit that sets what was there before. Adds and removes have no value to go back to. -/
def reset : Edit α → Edit α
  | .move id before _ => .move id before before
  | .rotate id before _ => .rotate id before before
  | .scale id before _ => .scale id before before
  | .reparent id before _ => .reparent id before before
  | .changeProperty id key before _ => .changeProperty id key before before
  | e => e

end Edit

/-- What every command carries besides its edit. -/
structure Header where
  id : CommandId
  /-- Sent while the user is still dragging. -/
  transient : Bool := false
  /-- Superseded: it must not be applied. -/
  dying : Bool := false
  /-- No rule is asked. -/
  forced : Bool := false
  deriving DecidableEq, Repr

/-- A request to edit the scene: one edit, or several commands as one. -/
inductive Command (α : Type) where
  | single (header : Header) (edit : Edit α)
  | composite (header : Header) (description : String) (members : List (Command α))

namespace Command

variable {α : Type}

/-- The header of a command, single or composite. -/
def header : Command α → Header
  | .single h _ => h
  | .composite h _ _ => h

/-- The same edit or members under another header. -/
def withHeader (c : Command α) (h : Header) : Command α :=
  match c with
  | .single _ e => .single h e
  | .composite _ d ms => .composite h d ms

/-- The number of a command. -/
def id (c : Command α) : CommandId := c.header.id

/-- The kind of a command; a composite has a kind of its own. -/
def kind : Command α → CommandKind
  | .single _ e => e.kind
  | .composite .. => .composite

/-- The entity a command is about; a composite is about none. -/
def entityId : Command α → Option EntityId
  | .single _ e => some e.entityId
  | .composite .. => none

/-- The property a command sets; a composite sets none. -/
def propertyKey : Command α → Option PropertyKey
  | .single _ e => e.propertyKey
  | .composite .. => none

/-- The commands right inside a composite. -/
def members : Command α → List (Command α)
  | .single .. => []
  | .composite _ _ ms => ms

/-- A single command with a fresh number and no flags. -/
def ofEdit (ids : IdSource) (e : Edit α) : Command α × IdSource :=
  let (id, ids) := ids.fresh
  (.single { id } e, ids)

/-- A composite with a fresh number and no flags. -/
def group (ids : IdSource) (description : String) (members : List (Command α)) :
    Command α × IdSource :=
  let (id, ids) := ids.fresh
  (.composite { id } description members, ids)

mutual

/-- The command with every edit in it set back to the values before. -/
def resetToStart : Command α → Command α
  | .single h e => .single h e.reset
  | .composite h d ms => .composite h d (resetAll ms)

/-- Each command of a list with its edits set back, in the same order. -/
def resetAll : List (Command α) → List (Command α)
  | [] => []
  | c :: cs => resetToStart c :: resetAll cs

end

mutual

/-- The single commands in a command, in depth-first order. -/
def leaves : Command α → List (Command α)
  | .single h e => [.single h e]
  | .composite _ _ ms => leavesAll ms

/-- The single commands in a list of commands, in depth-first order. -/
def leavesAll : List (Command α) → List (Command α)
  | [] => []
  | c :: cs => leaves c ++ leavesAll cs

end

/-- The words an edit goes by: what its author called it, or its kind. -/
def label : Command α → String
  | .single _ e => e.kind.name
  | .composite _ d _ => d

end Command

end SceneGuard
