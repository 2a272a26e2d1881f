import SceneGuard.Data.Document
import SceneGuard.Data.Outline
import SceneGuard.Model.Scene
import SceneGuard.Text.Digits

/-!
# Entities and scenes as documents

Reading and writing scalars, vectors, entities and scenes. What is written reads back as it was; a
scalar that is not finite is written as nothing at all.
-/

namespace SceneGuard

namespace Document

variable {α : Type} [Scalar α]

/-- A scalar; a whole number is one too. -/
def asScalar? : Document α → Option α
  | .number x => some x
  | .int n => some (Scalar.ofInt n)
  | _ => none

/-- Three scalars in a list. -/
def asVec3? : Document α → Option (Vec3 α)
  | .list [x, y, z] => return ⟨← x.asScalar?, ← y.asScalar?, ← z.asScalar?⟩
  | _ => none

/-- The axis and the angle in one list of four. -/
def asAxisAngle? : Document α → Option (AxisAngle α)
  | .list [x, y, z, a] => return ⟨⟨← x.asScalar?, ← y.asScalar?, ← z.asScalar?⟩, ← a.asScalar?⟩
  | _ => none

/-- Three corners in a list. -/
def asTriangle? : Document α → Option (Triangle α)
  | .list [a, b, c] => return ⟨← a.asVec3?, ← b.asVec3?, ← c.asVec3?⟩
  | _ => none

/-- A scalar, or nothing where no file can hold it. -/
def ofScalar (x : α) : Document α := if Scalar.isFinite x then .number x else .null

def ofVec3 (v : Vec3 α) : Document α := .list (v.toList.map ofScalar)

def ofAxisAngle (r : AxisAngle α) : Document α := .list ((r.axis.toList ++ [r.angle]).map ofScalar)

def ofTriangle (t : Triangle α) : Document α := .list [ofVec3 t.a, ofVec3 t.b, ofVec3 t.c]

/-- A number as files write it. -/
def ofId (id : UInt64) : Document α := .int id.toNat

/-- What may be missing; nothing stands for a missing one. -/
def ofOption {β : Type} (write : β → Document α) : Option β → Document α
  | none => .null
  | some b => write b

end Document

open Document

variable {α : Type} [Scalar α]

namespace PropertyValue

/-- The first kind of value that fits; a whole number of more than 64 bits is a scalar. -/
def ofDocument? (d : Document α) : Option (PropertyValue α) :=
  match d with
  | .bool b => some (.bool b)
  | .int n =>
    match d.asInt64? with
    | some i => some (.int i)
    | none => some (.number (Scalar.ofInt n))
  | .number x => some (.number x)
  | .text s => some (.text s)
  | _ => d.asVec3?.map .vector

/-- A value without its kind, which the form of the document tells. -/
def toDocument : PropertyValue α → Document α
  | .bool b => .bool b
  | .int n => .int n.toInt
  | .number x => ofScalar x
  | .text s => .text s
  | .vector v => ofVec3 v

end PropertyValue

namespace PropertyKey

def ofDocument? (l : Latitude) (d : Document α) : Option PropertyKey := do
  let f ← d.fields? l ["sheet", "name"]
  return { sheet := ← (f "sheet").required asText?, name := ← (f "name").required asText? }

def toDocument (k : PropertyKey) : Document α :=
  .record [("sheet", .text k.sheet), ("name", .text k.name)]

end PropertyKey

namespace Entity

/-- The values of a sheet; of two with one name the later stays. -/
def sheetOfDocument? (d : Document α) : Option (Table String (PropertyValue α)) :=
  (d.asMap? fun name v => (PropertyValue.ofDocument? v).map fun v => (name, v)).map Table.ofList

/-- The sheets of an entity; of two with one name the later stays. -/
def propertiesOfDocument? (d : Document α) : Option (Properties α) :=
  (d.asMap? fun name s => (sheetOfDocument? s).map fun s => (name, s)).map Table.ofList

def propertiesToDocument (p : Properties α) : Document α :=
  .record (p.entries.map fun (sheet, values) =>
    (sheet, .record (values.entries.map fun (name, v) => (name, v.toDocument))))

/-- The fields of an entity, in the order of a list that stands for the record. -/
def fieldNames : List String :=
  ["id", "name", "kind", "parent", "children", "position", "rotation", "scale", "size",
    "minimum_extent", "bounds_border", "properties", "mesh"]

/-- The parts of an entity; other fields are passed over. -/
def outline : Outline := .fields (fieldNames.map fun name => (name, .all))

/-- An entity has to state its number and its size; all else has a default. -/
def ofDocument? (l : Latitude) (d : Document α) : Option (Entity α) := do
  let f ← d.fields? l fieldNames
  return {
    id := ← (f "id").required asUInt64?
    name := ← (f "name").orElse "" asText?
    kind := ← (f "kind").orElse .model fun d => (d.asName? l).bind EntityKind.ofName?
    parent := ← (f "parent").nullable asUInt64?
    children := ← (f "children").orElse [] (asList? asUInt64?)
    position := ← (f "position").orElse (.splat 0) asVec3?
    rotation := ← (f "rotation").orElse noRotation asAxisAngle?
    scale := ← (f "scale").orElse (.splat 1) asVec3?
    size := ← (f "size").required asVec3?
    minimumExtent := ← (f "minimum_extent").nullable asVec3?
    border := ← (f "bounds_border").orElse (.splat 0) asVec3?
    properties := ← (f "properties").orElse .empty propertiesOfDocument?
    mesh := ← (f "mesh").orElse [] (asList? asTriangle?) }

/-- An entity with every field written out. -/
def toDocument (e : Entity α) : Document α :=
  .record
    [("id", ofId e.id), ("name", .text e.name), ("kind", .text e.kind.name),
      ("parent", ofOption ofId e.parent), ("children", .list (e.children.map ofId)),
      ("position", ofVec3 e.position), ("rotation", ofAxisAngle e.rotation),
      ("scale", ofVec3 e.scale), ("size", ofVec3 e.size),
      ("minimum_extent", ofOption ofVec3 e.minimumExtent), ("bounds_border", ofVec3 e.border),
      ("properties", propertiesToDocument e.properties), ("mesh", .list (e.mesh.map ofTriangle))]

end Entity

namespace Scene

/-- A number as the name of a field: digits without a zero in front. -/
def keyOfText? (s : String) : Option EntityId :=
  let cs := s.toList
  if cs.isEmpty || !cs.all Char.isDigit || (cs.head? = some '0' && 1 < cs.length) then none
  else
    let n := Digits.toNat cs
    if n < UInt64.size then some (UInt64.ofNat n) else none

/-- The entities by their numbers, which are the names of the fields. -/
def entitiesOfDocument? (d : Document α) : Option (Table EntityId (Entity α)) :=
  (d.asMap? fun name e => do return (← keyOfText? name, ← Entity.ofDocument? .strict e)).map
    Table.ofList

/-- The parts of a scene; other fields are passed over, in the entities as well. -/
def outline : Outline := .fields [("entities", .numbered Entity.outline), ("active_zone", .all)]

/-- A scene has to have its entities; the zone may be left out. -/
def ofDocument? (d : Document α) : Option (Scene α) := do
  let f ← d.fields? .strict ["entities", "active_zone"]
  return {
    entities := ← (f "entities").required entitiesOfDocument?
    activeZone := ← (f "active_zone").nullable asUInt64? }

def toDocument (s : Scene α) : Document α :=
  .record
    [("entities", .record (s.entities.entries.map fun (id, e) => (toString id, e.toDocument))),
      ("active_zone", ofOption ofId s.activeZone)]

end Scene

end SceneGuard
