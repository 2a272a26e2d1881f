import SceneGuard.Codec.Entity

/-!
# Commands as documents

A command is a record with its kind under `type`. One that carries a number has it reserved; one
that does not gets a fresh number. A composite has its number settled before its members, which are
read in order.
-/

namespace SceneGuard

open Document

/-- What a command allows in its fields: an empty record may stand for
the content of a choice without any. -/
def Command.latitude : Latitude := { emptyRecord := true }

namespace Edit

variable {α : Type} [Scalar α]

/-- The edit of a kind, out of the fields of its command. -/
def ofFields? (kind : CommandKind) (fs : List (String × Document α)) : Option (Edit α) := do
  let f (name : String) : Document.Field α := field name fs
  let id : Option EntityId := (f "entity_id").required asUInt64?
  let vec (name : String) : Option (Vec3 α) := (f name).required asVec3?
  let entity : Option (Entity α) := (f "entity").required (Entity.ofDocument? Command.latitude)
  match kind with
  | .add role => return .add role (← entity)
  | .remove role => return .remove role (← id)
  | .move => return .move (← id) (← vec "start_position") (← vec "end_position")
  | .rotate =>
    return .rotate (← id) (← (f "start_rotation").required asAxisAngle?)
      (← (f "end_rotation").required asAxisAngle?)
  | .scale =>
    return .scale (← id) ⟨← vec "start_position", ← vec "start_scale"⟩
      ⟨← vec "end_position", ← vec "end_scale"⟩
  | .reparent =>
    return .reparent (← id) ⟨← (f "start_parent").nullable asUInt64?, ← vec "start_position"⟩
      ⟨← (f "end_parent").nullable asUInt64?, ← vec "end_position"⟩
  | .changeProperty =>
    return .changeProperty (← id) (← (f "key").required (PropertyKey.ofDocument? Command.latitude))
      (← (f "start_value").required PropertyValue.ofDocument?)
      (← (f "end_value").required PropertyValue.ofDocument?)
  | .composite => none

/-- The fields of an edit beside those of every command. -/
def toFields : Edit α → List (String × Document α)
  | .add _ e => [("entity", e.toDocument)]
  | .remove _ id => [("entity_id", ofId id)]
  | .move id before after =>
    [("entity_id", ofId id), ("start_position", ofVec3 before), ("end_position", ofVec3 after)]
  | .rotate id before after =>
    [("entity_id", ofId id), ("start_rotation", ofAxisAngle before),
      ("end_rotation", ofAxisAngle after)]
  | .scale id before after =>
    [("entity_id", ofId id), ("start_position", ofVec3 before.position),
      ("end_position", ofVec3 after.position), ("start_scale", ofVec3 before.scale),
      ("end_scale", ofVec3 after.scale)]
  | .reparent id before after =>
    [("entity_id", ofId id), ("start_parent", ofOption ofId before.parent),
      ("end_parent", ofOption ofId after.parent), ("start_position", ofVec3 before.position),
      ("end_position", ofVec3 after.position)]
  | .changeProperty id key before after =>
    [("entity_id", ofId id), ("key", key.toDocument), ("start_value", before.toDocument),
      ("end_value", after.toDocument)]

end Edit

namespace Command

variable {α : Type} [Scalar α]

/-- The header of a command, with its number settled. -/
def headerOfFields? (ids : IdSource) (fs : List (String × Document α)) :
    Option (Header × IdSource) := do
  let f (name : String) : Document.Field α := field name fs
  let flag (name : String) : Option Bool := (f name).orElse false asBool?
  let transient ← flag "transient"
  let dying ← flag "die"
  let forced ← flag "bypass_rules"
  let given ← (f "id").orElse none fun d => d.asUInt64?.map some
  match given with
  | some id => return ({ id, transient, dying, forced }, ids.reserve id)
  | none =>
    let (id, ids) := ids.fresh
    return ({ id, transient, dying, forced }, ids)

/-- A kind by its name, or by its place among all kinds. -/
def kindOfDocument? : Document α → Option CommandKind
  | .text s => CommandKind.ofName? s
  | .int n => if 0 ≤ n then CommandKind.all[n.toNat]? else none
  | _ => none

/-- The kind a command states; it has to state one. -/
def kindOfFields? (fs : List (String × Document α)) : Option CommandKind :=
  (field "type" fs).required kindOfDocument?

/-- What a composite is called; a member list written twice makes it none. -/
def descriptionOfFields? (fs : List (String × Document α)) : Option String :=
  match field "commands" fs with
  | .given _ => (field "description" fs).orElse "" asText?
  | .absent | .repeated => none

mutual

/-- Read a command. Numbers stay settled also when the reading fails. -/
def ofDocument (ids : IdSource) : Document α → Option (Command α) × IdSource
  | .record fs =>
    match headerOfFields? ids fs with
    | none => (none, ids)
    | some (h, ids) =>
      match kindOfFields? fs with
      | none => (none, ids)
      | some .composite =>
        -- the members are read in any case, for the numbers they carry
        match descriptionOfFields? fs, membersOfFields ids fs with
        | some d, (some ms, ids) => (some (.composite h d ms), ids)
        | _, (_, ids) => (none, ids)
      | some kind => ((Edit.ofFields? kind fs).map (.single h), ids)
  | _ => (none, ids)

/-- The members of a composite, from the first field of that name. -/
def membersOfFields (ids : IdSource) :
    List (String × Document α) → Option (List (Command α)) × IdSource
  | [] => (none, ids)
  | (name, d) :: rest =>
    if name = "commands" then membersOfDocument ids d else membersOfFields ids rest

/-- The members of a composite, from the list that holds them. -/
def membersOfDocument (ids : IdSource) : Document α → Option (List (Command α)) × IdSource
  | .list items => allOfDocuments ids items
  | _ => (none, ids)

/-- Read commands one after the other, up to the first that fails. -/
def allOfDocuments (ids : IdSource) : List (Document α) → Option (List (Command α)) × IdSource
  | [] => (some [], ids)
  | d :: ds =>
    match ofDocument ids d with
    | (none, ids) => (none, ids)
    | (some c, ids) =>
      match allOfDocuments ids ds with
      | (none, ids) => (none, ids)
      | (some cs, ids) => (some (c :: cs), ids)

end

/-- The fields of a command in the order in which they are written: its own between the number and
the flags. -/
def headerFields (h : Header) (kind : CommandKind) (own : List (String × Document α)) :
    List (String × Document α) :=
  [("id", ofId h.id), ("type", .text kind.name)] ++ own
    ++ [("transient", .bool h.transient), ("die", .bool h.dying), ("bypass_rules", .bool h.forced)]

mutual

def toDocument : Command α → Document α
  | .single h e => .record (headerFields h e.kind e.toFields)
  | .composite h d ms =>
    .record
      (headerFields h .composite [("description", .text d),
        ("commands", .list (allToDocuments ms))])

/-- Commands one after the other. -/
def allToDocuments : List (Command α) → List (Document α)
  | [] => []
  | c :: cs => toDocument c :: allToDocuments cs

end

end Command

end SceneGuard
