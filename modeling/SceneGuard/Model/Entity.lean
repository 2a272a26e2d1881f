import SceneGuard.Data.Table
import SceneGuard.Geometry.Transform
import SceneGuard.Model.Identifier

/-!
# Entities

What stands in a scene: a placement relative to a parent, a size, property sheets and, for some, a
mesh.
-/

namespace SceneGuard

/-- What an entity is, as far as rules care. -/
inductive EntityKind where
  | model
  /-- A surface that others stand on. Nothing collides with it. -/
  | zone
  /-- A wall or a fence between two vertices. -/
  | segment
  | vertex
  deriving DecidableEq, Repr

namespace EntityKind

/-- Every kind of entity. -/
def all : List EntityKind := [.model, .zone, .segment, .vertex]

/-- The name of a kind in files. -/
def name : EntityKind → String
  | .model => "model"
  | .zone => "zone"
  | .segment => "segment"
  | .vertex => "vertex"

/-- The kind of a name; none for a word that names none. -/
def ofName? (s : String) : Option EntityKind := all.find? fun k => k.name == s

end EntityKind

/-- What a property can hold. Whole numbers are kept apart from scalars, as files keep them. -/
inductive PropertyValue (α : Type) where
  | bool (b : Bool)
  | int (n : Int64)
  | number (x : α)
  | text (s : String)
  | vector (v : Vec3 α)
  deriving DecidableEq, BEq, Repr

/-- Where a property stands: the sheet and the name on it. -/
structure PropertyKey where
  sheet : String
  name : String
  deriving DecidableEq, Repr

/-- The sheets of an entity by name, and on each the values by name. -/
abbrev Properties (α : Type) := Table String (Table String (PropertyValue α))

/-- What stands in a scene. Parent and children are two records of one link; all else is the
entity's own. -/
structure Entity (α : Type) where
  id : EntityId
  name : String := ""
  kind : EntityKind := .model
  /-- Position and rotation are relative to it. -/
  parent : Option EntityId := none
  /-- In the order in which they came. -/
  children : List EntityId := []
  position : Vec3 α
  rotation : AxisAngle α
  /-- Stretches the entity's own size, and not what is below it. -/
  scale : Vec3 α
  /-- Around the entity's origin, before scaling. -/
  size : Vec3 α
  /-- What the entity takes up at least, where its extended box is asked for. -/
  minimumExtent : Option (Vec3 α) := none
  /-- By how much each face of the box moves outwards. -/
  border : Vec3 α
  properties : Properties α := .empty
  /-- Triangles around the entity's origin that refine its box. -/
  mesh : List (Triangle α) := []
  deriving DecidableEq, BEq

namespace Entity

variable {α : Type}

/-- The value under a key; none when the sheet is not there or has no such name. -/
def property (e : Entity α) (key : PropertyKey) : Option (PropertyValue α) :=
  (e.properties.get? key.sheet).bind fun sheet => sheet.get? key.name

/-- The entity with a property set; the sheet is made if there is none. -/
def setProperty (e : Entity α) (key : PropertyKey) (value : PropertyValue α) : Entity α :=
  let sheet := (e.properties.get? key.sheet).getD .empty
  { e with properties := e.properties.insert key.sheet (sheet.insert key.name value) }

variable [Scalar α]

/-- No turn at all. The axis is the one that files have when they state none. -/
def noRotation : AxisAngle α := ⟨.unit .y, 0⟩

/-- An entity at the origin, unturned and unscaled. -/
def new (id : EntityId) (kind : EntityKind) (size : Vec3 α) : Entity α :=
  { id, kind, size, position := .splat 0, rotation := noRotation, scale := .splat 1,
    border := .splat 0 }

end Entity

end SceneGuard
