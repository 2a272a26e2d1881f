import SceneGuard.Codec.Command
import SceneGuard.Proofs.Codec.Entity
import SceneGuard.Proofs.Model.Numbering

/-!
# Commands read back from their documents

A command tree of any depth reads back as it was, if its scalars are finite, and the numbers in it
are reserved on the way (`Command.ofDocument_toDocument`). No edit has a field with the name of one
that every command has, so each field of a command stands in its record once
(`Command.nodup_headerFields`).
-/

namespace SceneGuard

open Document

variable {α : Type}

/-! ## Edits -/

/-- The scalars in an edit. -/
def Edit.scalars : Edit α → List α
  | .add _ e => e.scalars
  | .remove _ _ => []
  | .move _ before after => before.toList ++ after.toList
  | .rotate _ before after => before.scalars ++ after.scalars
  | .scale _ before after =>
    before.position.toList ++ before.scale.toList ++ after.position.toList ++ after.scale.toList
  | .reparent _ before after => before.position.toList ++ after.position.toList
  | .changeProperty _ _ before after => before.scalars ++ after.scalars

/-- The name of a kind is read back as that kind. -/
theorem CommandKind.ofName?_name (k : CommandKind) : CommandKind.ofName? k.name = some k := by
  rcases k with (_ | _ | _) | (_ | _ | _) | _ | _ | _ | _ | _ | _ <;> decide

/-- A reference that may be null is read back, null and all. -/
theorem Document.nullable_ofOption_ofId (o : Option UInt64) :
    (Field.given (ofOption ofId o : Document α)).nullable asUInt64? = some o :=
  nullable_ofOption o ofId_ne_null fun id _ => asUInt64?_ofId id

variable [Scalar α]

/-- An edit reads back from any record in which its fields stand once. -/
theorem Edit.ofFields?_of_given {e : Edit α} {fs : List (String × Document α)}
    (hfs : ∀ f ∈ e.toFields, field f.1 fs = .given f.2)
    (h : ∀ x ∈ e.scalars, Scalar.isFinite x = true) : Edit.ofFields? e.kind fs = some e := by
  -- each kind asks for its own fields, and every number in them is finite
  cases e with
  | add role e =>
    simp only [toFields, List.forall_mem_cons] at hfs
    simp [kind, ofFields?, hfs, Field.required, Entity.ofDocument?_toDocument _ h]
  | remove role id =>
    simp only [toFields, List.forall_mem_cons] at hfs
    simp [kind, ofFields?, hfs, Field.required]
  | move id before after =>
    simp only [toFields, List.forall_mem_cons] at hfs
    simp only [scalars, List.forall_mem_append] at h
    simp [kind, ofFields?, hfs, Field.required, asVec3?_ofVec3 h.1, asVec3?_ofVec3 h.2]
  | rotate id before after =>
    simp only [toFields, List.forall_mem_cons] at hfs
    simp only [scalars, List.forall_mem_append] at h
    simp [kind, ofFields?, hfs, Field.required, asAxisAngle?_ofAxisAngle h.1,
      asAxisAngle?_ofAxisAngle h.2]
  | scale id before after =>
    simp only [toFields, List.forall_mem_cons] at hfs
    simp only [scalars, List.forall_mem_append] at h
    obtain ⟨⟨⟨hposition, hscale⟩, hposition'⟩, hscale'⟩ := h
    simp [kind, ofFields?, hfs, Field.required, asVec3?_ofVec3 hposition, asVec3?_ofVec3 hscale,
      asVec3?_ofVec3 hposition', asVec3?_ofVec3 hscale']
  | reparent id before after =>
    simp only [toFields, List.forall_mem_cons] at hfs
    simp only [scalars, List.forall_mem_append] at h
    simp [kind, ofFields?, hfs, Field.required, nullable_ofOption_ofId, asVec3?_ofVec3 h.1,
      asVec3?_ofVec3 h.2]
  | changeProperty id key before after =>
    simp only [toFields, List.forall_mem_cons] at hfs
    simp only [scalars, List.forall_mem_append] at h
    simp [kind, ofFields?, hfs, Field.required, PropertyKey.ofDocument?_toDocument,
      PropertyValue.ofDocument?_toDocument h.1, PropertyValue.ofDocument?_toDocument h.2]

/-!
## Commands

The proofs go by induction on the command and its members. The reserved numbers are handed from one
member to the next.
-/

namespace Command

omit [Scalar α] in
mutual

/-- The scalars in a command. -/
def scalars : Command α → List α
  | .single _ e => e.scalars
  | .composite _ _ ms => scalarsAll ms

/-- The scalars in a list of commands. -/
def scalarsAll : List (Command α) → List α
  | [] => []
  | c :: cs => scalars c ++ scalarsAll cs

end

/-- The fields of an edit have other names than those of the header. -/
theorem nodup_headerFields (h : Header) (e : Edit α) :
    ((headerFields h e.kind e.toFields).map Prod.fst).Nodup := by
  cases e <;> simp [headerFields, Edit.toFields]

omit [Scalar α] in
/-- A composite writes each of its fields under a name of its own. -/
theorem nodup_headerFields_composite (h : Header) (d : String) (ms : List (Document α)) :
    ((headerFields h .composite [("description", .text d), ("commands", .list ms)]).map
      Prod.fst).Nodup := by
  simp [headerFields]

omit [Scalar α] in
/-- A header reads back, and its number is reserved. -/
theorem headerOfFields?_headerFields (ids : IdSource) {h : Header} {kind : CommandKind}
    {own : List (String × Document α)} (hnodup : ((headerFields h kind own).map Prod.fst).Nodup) :
    headerOfFields? ids (headerFields h kind own) = some (h, ids.reserve h.id) := by
  have hid : field "id" (headerFields h kind own) = .given (ofId h.id) :=
    field_eq_given hnodup (by simp [headerFields])
  have htransient : field "transient" (headerFields h kind own) = .given (.bool h.transient) :=
    field_eq_given hnodup (by simp [headerFields])
  have hdying : field "die" (headerFields h kind own) = .given (.bool h.dying) :=
    field_eq_given hnodup (by simp [headerFields])
  have hforced : field "bypass_rules" (headerFields h kind own) = .given (.bool h.forced) :=
    field_eq_given hnodup (by simp [headerFields])
  simp [headerOfFields?, hid, htransient, hdying, hforced, Field.orElse, asBool?]

omit [Scalar α] in
/-- The kind of a written command is found among its fields, whatever else these are. -/
theorem kindOfFields?_headerFields {h : Header} {kind : CommandKind}
    {own : List (String × Document α)} (hnodup : ((headerFields h kind own).map Prod.fst).Nodup) :
    kindOfFields? (headerFields h kind own) = some kind := by
  have htype : field "type" (headerFields h kind own) = .given (.text kind.name) :=
    field_eq_given hnodup (by simp [headerFields])
  rw [kindOfFields?, htype]
  exact CommandKind.ofName?_name kind

/-- A command of any kind but one is a header and an edit. -/
theorem ofDocument_of_ne_composite {ids ids' : IdSource}
    {fs : List (String × Document α)} {h : Header} {kind : CommandKind}
    (hheader : headerOfFields? ids fs = some (h, ids')) (hkind : kindOfFields? fs = some kind)
    (hne : kind ≠ .composite) :
    ofDocument ids (.record fs) = ((Edit.ofFields? kind fs).map (.single h), ids') := by
  rw [ofDocument, hheader]
  simp only [hkind]

omit [Scalar α] in
/-- The description is read back, and it is not taken for another field. -/
theorem descriptionOfFields?_headerFields (h : Header) (d : String) (ms : List (Document α)) :
    descriptionOfFields?
      (headerFields h .composite [("description", .text d), ("commands", .list ms)]) =
      some d := by
  have hnodup := nodup_headerFields_composite h d ms
  have hcommands := field_eq_given hnodup (show ("commands", .list ms) ∈ _ by simp [headerFields])
  have hdescription := field_eq_given hnodup (show ("description", .text d) ∈ _ by
    simp [headerFields])
  rw [descriptionOfFields?, hcommands, hdescription]
  rfl

mutual

/-- A command reads back from its document, and the numbers in it are reserved. -/
theorem ofDocument_toDocument (ids : IdSource) (c : Command α)
    (h : ∀ x ∈ c.scalars, Scalar.isFinite x = true) :
    ofDocument ids c.toDocument = (some c, c.numbers.foldl IdSource.reserve ids) := by
  cases c with
  | single header e =>
    have hnodup := nodup_headerFields header e
    have hedit : Edit.ofFields? e.kind (headerFields header e.kind e.toFields) = some e :=
      Edit.ofFields?_of_given (fun f hf => field_eq_given hnodup (by simp [headerFields, hf])) h
    have hne : e.kind ≠ .composite := by cases e <;> nofun
    rw [toDocument, ofDocument_of_ne_composite (headerOfFields?_headerFields ids hnodup)
      (kindOfFields?_headerFields hnodup) hne, hedit]
    rfl
  | composite header d ms =>
    have hnodup := nodup_headerFields_composite header d (allToDocuments ms)
    -- the members take their numbers after the header has reserved its own
    have hmembers : membersOfFields (ids.reserve header.id) (headerFields header .composite
        [("description", .text d), ("commands", .list (allToDocuments ms))]) =
          (some ms, (numbersAll ms).foldl IdSource.reserve (ids.reserve header.id)) := by
      simp only [headerFields, List.cons_append, List.nil_append, membersOfFields,
        membersOfDocument]
      exact allOfDocuments_allToDocuments (ids.reserve header.id) ms h
    rw [toDocument, ofDocument, headerOfFields?_headerFields ids hnodup]
    simp only [kindOfFields?_headerFields hnodup, descriptionOfFields?_headerFields, hmembers]
    rfl

/-- The members are read one after the other, each with the numbers that the ones before it left. -/
theorem allOfDocuments_allToDocuments (ids : IdSource) (cs : List (Command α))
    (h : ∀ x ∈ scalarsAll cs, Scalar.isFinite x = true) :
    allOfDocuments ids (allToDocuments cs) =
      (some cs, (numbersAll cs).foldl IdSource.reserve ids) := by
  cases cs with
  | nil => rfl
  | cons c cs =>
    simp only [scalarsAll, List.forall_mem_append] at h
    rw [allToDocuments, allOfDocuments, ofDocument_toDocument ids c h.1]
    simp only
    rw [allOfDocuments_allToDocuments _ cs h.2, numbersAll, List.foldl_append]

end

end Command

end SceneGuard
