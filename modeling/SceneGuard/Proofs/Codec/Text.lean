import SceneGuard.CommandLine
import SceneGuard.Proofs.Codec.Command
import SceneGuard.Proofs.Json.RoundTrip

/-!
# Scenes and commands read back from their text

The documents of scenes and commands meet what reading back asks for (`Json.read?_write`): their
numbers can be read off their text, readers of scenes ask for all that scenes are written with, and
a scene goes six levels deep at most. A command goes two levels deeper with every composite around
it, and the reader stops at some depth. Main statements:

* `CommandLine.sceneOfText?_write` — a scene is read back from its text;
* `Command.ofText_write`, `CommandLine.commandsOfText?_write` — commands are read back from their
  text exactly when it is not too deep;
* `decode_encode` — what reads back from documents, and what from text.
-/

namespace SceneGuard

open Document Json

/-!
## Depth

How deep a document goes is bounded part by part. Commands alone have no bound, since composites may
stand in one another.
-/

namespace Document

variable {α : Type}

/-- A list goes one level deeper than its items. -/
theorem depth_list_map_le {β : Type} {write : β → Document α} {bs : List β} {n : Nat}
    (h : ∀ b ∈ bs, (write b).depth ≤ n) : (list (bs.map write)).depth ≤ n + 1 :=
  Nat.succ_le_succ (depthItems_le_iff.2 (List.forall_mem_map.2 h))

/-- A record goes one level deeper than its fields. -/
theorem depth_record_map_le {β : Type} {write : β → String × Document α} {bs : List β} {n : Nat}
    (h : ∀ b ∈ bs, (write b).2.depth ≤ n) : (record (bs.map write)).depth ≤ n + 1 :=
  Nat.succ_le_succ (depthFields_le_iff.2 (List.forall_mem_map.2 h))

theorem depth_text (s : String) : (text s : Document α).depth = 0 := rfl

theorem depth_ofId (id : UInt64) : (ofId id : Document α).depth = 0 := rfl

/-- What may be null goes no deeper than what is written otherwise. -/
theorem depth_ofOption_le {β : Type} {write : β → Document α} {n : Nat}
    (h : ∀ b, (write b).depth = n) (o : Option β) : (ofOption write o).depth ≤ n := by
  cases o with
  | none => exact Nat.zero_le n
  | some b => exact Nat.le_of_eq (h b)

variable [Scalar α]

theorem depth_ofScalar (x : α) : (ofScalar x).depth = 0 := by
  unfold ofScalar
  split <;> rfl

theorem depth_ofVec3 (v : Vec3 α) : (ofVec3 v).depth = 1 := by
  simp [ofVec3, Vec3.toList, depth, depthItems, depth_ofScalar]

theorem depth_ofAxisAngle (r : AxisAngle α) : (ofAxisAngle r).depth = 1 := by
  simp [ofAxisAngle, Vec3.toList, depth, depthItems, depth_ofScalar]

theorem depth_ofTriangle (t : Triangle α) : (ofTriangle t).depth = 2 := by
  simp [ofTriangle, depth, depthItems, depth_ofVec3]

end Document

section

variable {α : Type} [Scalar α]

theorem PropertyValue.depth_toDocument_le (v : PropertyValue α) : v.toDocument.depth ≤ 1 := by
  cases v with
  | number x => exact Nat.le_trans (Nat.le_of_eq (depth_ofScalar x)) (Nat.zero_le 1)
  | vector w => exact Nat.le_of_eq (depth_ofVec3 w)
  | _ => exact Nat.zero_le 1

/-- Sheets in a record of sheets, and in them perhaps a vector. -/
theorem Entity.depth_propertiesToDocument_le (p : Properties α) :
    (propertiesToDocument p).depth ≤ 3 :=
  depth_record_map_le fun _ _ => depth_record_map_le fun e _ => e.2.depth_toDocument_le

/-- The meshes and the sheets are what goes deepest in an entity. -/
theorem Entity.depth_toDocument_le (e : Entity α) : e.toDocument.depth ≤ 4 := by
  have hchildren : (list (e.children.map ofId) : Document α).depth ≤ 1 :=
    depth_list_map_le fun id _ => Nat.le_of_eq (depth_ofId id)
  have hmesh : (list (e.mesh.map ofTriangle)).depth ≤ 3 :=
    depth_list_map_le fun t _ => Nat.le_of_eq (depth_ofTriangle t)
  have hparent : (ofOption ofId e.parent : Document α).depth ≤ 0 :=
    depth_ofOption_le depth_ofId e.parent
  have hextent : (ofOption ofVec3 e.minimumExtent).depth ≤ 1 :=
    depth_ofOption_le depth_ofVec3 e.minimumExtent
  have hproperties := depth_propertiesToDocument_le e.properties
  -- the mesh is the deepest of the fields
  refine Nat.succ_le_succ (depthFields_le_iff.2 ?_)
  simp only [List.forall_mem_cons, depth_text, depth_ofVec3, depth_ofAxisAngle, depth_ofId,
    List.not_mem_nil, false_implies, implies_true, and_true]
  omega

/-- However many entities there are, a scene goes six levels deep at most. -/
theorem Scene.depth_toDocument_le (s : Scene α) : s.toDocument.depth ≤ 6 := by
  have hentities :
      (record (s.entities.entries.map fun e => (toString e.1, e.2.toDocument))).depth ≤ 5 :=
    depth_record_map_le fun e _ => e.2.depth_toDocument_le
  have hzone : (ofOption ofId s.activeZone : Document α).depth ≤ 0 :=
    depth_ofOption_le depth_ofId s.activeZone
  refine Nat.succ_le_succ (depthFields_le_iff.2 ?_)
  simp only [List.forall_mem_cons]
  exact ⟨hentities, Nat.le_trans hzone (Nat.zero_le 5), List.forall_mem_nil _⟩

end

/-!
## Numbers

Whether a document is legible comes down to its floats. The whole numbers of entities and commands
are of 64 bits anyway.
-/

/-- Exact floats are finite: others are not written as numbers. -/
theorem Json.Exact.isFinite {x : Float} (h : Exact x) : Scalar.isFinite x = true := by
  by_contra hx
  obtain ⟨l, hl, _⟩ := h
  have htext : floatText x = "null" := if_neg hx
  rw [htext] at hl
  have hnull : number? "null".toList = none := by decide
  rw [hnull] at hl
  exact nomatch hl

namespace Document

/-- Every number of an entity is legible. -/
theorem legible_ofId (id : UInt64) : Legible (ofId id) := by
  have hmin : Int64.minValue.toInt ≤ 0 := by decide
  exact ⟨Int.le_trans hmin (Int.natCast_nonneg _), by exact_mod_cast id.toNat_lt⟩

theorem legible_list_map {β : Type} {write : β → Document Float} {bs : List β}
    (h : ∀ b ∈ bs, Legible (write b)) : Legible (.list (bs.map write)) :=
  legibleItems_iff.2 (List.forall_mem_map.2 h)

/-- A record is legible if what is in its fields is. -/
theorem legible_record_map {β : Type} {write : β → String × Document Float} {bs : List β}
    (h : ∀ b ∈ bs, Legible (write b).2) : Legible (.record (bs.map write)) :=
  legibleFields_iff.2 (List.forall_mem_map.2 h)

/-- What may be null is legible if it is where it is not null. -/
theorem legible_ofOption {β : Type} {write : β → Document Float} {o : Option β}
    (h : ∀ b ∈ o, Legible (write b)) : Legible (ofOption write o) := by
  cases o with
  | none => exact trivial
  | some b => exact h b rfl

theorem legible_ofScalar {x : Float} (h : Exact x) : Legible (ofScalar x) := by
  rw [ofScalar_of_isFinite h.isFinite]
  exact h

theorem legible_ofVec3 {v : Vec3 Float} (h : ∀ x ∈ v.toList, Exact x) : Legible (ofVec3 v) :=
  legible_list_map fun x hx => legible_ofScalar (h x hx)

theorem legible_ofAxisAngle {r : AxisAngle Float} (h : ∀ x ∈ r.scalars, Exact x) :
    Legible (ofAxisAngle r) :=
  legible_list_map fun x hx => legible_ofScalar (h x hx)

theorem legible_ofTriangle {t : Triangle Float} (h : ∀ x ∈ t.scalars, Exact x) :
    Legible (ofTriangle t) := by
  simp only [Triangle.scalars, List.forall_mem_append] at h
  exact ⟨legible_ofVec3 h.1.1, legible_ofVec3 h.1.2, legible_ofVec3 h.2, trivial⟩

end Document

/-- A value is legible if the floats in it are exact. -/
theorem PropertyValue.legible_toDocument {v : PropertyValue Float} (h : ∀ x ∈ v.scalars, Exact x) :
    Legible v.toDocument := by
  cases v with
  | bool b => exact trivial
  | int n =>
    have hmax : Int64.maxValue.toInt < UInt64.size := by decide
    exact ⟨n.minValue_le_toInt, Int.lt_of_le_of_lt n.toInt_le hmax⟩
  | number x => exact legible_ofScalar (h x List.mem_cons_self)
  | text s => exact trivial
  | vector w => exact legible_ofVec3 h

theorem PropertyKey.legible_toDocument (k : PropertyKey) :
    Legible k.toDocument := ⟨trivial, trivial, trivial⟩

namespace Entity

/-- Sheets are legible if the floats in them are exact. -/
theorem legible_propertiesToDocument {p : Properties Float} (h : ∀ x ∈ propertyScalars p, Exact x) :
    Legible (propertiesToDocument p) :=
  legible_record_map fun sheet hsheet => legible_record_map fun value hvalue =>
    value.2.legible_toDocument fun x hx =>
      h x (List.mem_flatMap.2 ⟨sheet, hsheet, List.mem_flatMap.2 ⟨value, hvalue, hx⟩⟩)

/-- An entity is legible if all its floats are exact. -/
theorem legible_toDocument {e : Entity Float} (h : ∀ x ∈ e.scalars, Exact x) :
    Legible e.toDocument := by
  simp only [scalars, List.forall_mem_append] at h
  obtain ⟨⟨⟨⟨⟨⟨⟨hposition, hrotation⟩, hscale⟩, hsize⟩, hextent⟩, hborder⟩, hproperties⟩, hmesh⟩ :=
    h
  have hminimum : Legible (ofOption ofVec3 e.minimumExtent) := legible_ofOption fun v hv =>
    legible_ofVec3 fun x hx => hextent x (List.mem_flatMap.2 ⟨v, Option.mem_toList.2 hv, hx⟩)
  have htriangles : Legible (.list (e.mesh.map ofTriangle)) := legible_list_map fun t ht =>
    legible_ofTriangle fun x hx => hmesh x (List.mem_flatMap.2 ⟨t, ht, hx⟩)
  exact ⟨legible_ofId e.id, trivial, trivial, legible_ofOption fun id _ => legible_ofId id,
    legible_list_map fun id _ => legible_ofId id, legible_ofVec3 hposition,
    legible_ofAxisAngle hrotation, legible_ofVec3 hscale, legible_ofVec3 hsize, hminimum,
    legible_ofVec3 hborder, legible_propertiesToDocument hproperties, htriangles, trivial⟩

end Entity

/-- Whatever an edit writes of itself is legible if its floats are exact. -/
theorem Edit.legible_toFields {e : Edit Float} (h : ∀ x ∈ e.scalars, Exact x) :
    LegibleFields e.toFields := by
  cases e with
  | add role e => exact ⟨e.legible_toDocument h, trivial⟩
  | remove role id => exact ⟨legible_ofId id, trivial⟩
  | move id before after =>
    simp only [scalars, List.forall_mem_append] at h
    exact ⟨legible_ofId id, legible_ofVec3 h.1, legible_ofVec3 h.2, trivial⟩
  | rotate id before after =>
    simp only [scalars, List.forall_mem_append] at h
    exact ⟨legible_ofId id, legible_ofAxisAngle h.1, legible_ofAxisAngle h.2, trivial⟩
  | scale id before after =>
    simp only [scalars, List.forall_mem_append] at h
    obtain ⟨⟨⟨hposition, hscale⟩, hposition'⟩, hscale'⟩ := h
    exact ⟨legible_ofId id, legible_ofVec3 hposition, legible_ofVec3 hposition',
      legible_ofVec3 hscale, legible_ofVec3 hscale', trivial⟩
  | reparent id before after =>
    simp only [scalars, List.forall_mem_append] at h
    exact ⟨legible_ofId id, legible_ofOption fun p _ => legible_ofId p,
      legible_ofOption fun p _ => legible_ofId p, legible_ofVec3 h.1, legible_ofVec3 h.2, trivial⟩
  | changeProperty id key before after =>
    simp only [scalars, List.forall_mem_append] at h
    exact ⟨legible_ofId id, key.legible_toDocument, before.legible_toDocument h.1,
      after.legible_toDocument h.2, trivial⟩

namespace Command

/-- The fields of the header are numbers, flags and names, and legible anyway. -/
theorem legible_headerFields (h : Header) (kind : CommandKind)
    {own : List (String × Document Float)} (hown : LegibleFields own) :
    Legible (.record (headerFields h kind own)) := by
  refine legibleFields_iff.2 ?_
  simp only [headerFields, List.forall_mem_append, List.forall_mem_cons]
  exact ⟨⟨⟨legible_ofId h.id, trivial, List.forall_mem_nil _⟩, legibleFields_iff.1 hown⟩,
    trivial, trivial, trivial, List.forall_mem_nil _⟩

mutual

/-- A command is legible if all floats in it and in its members are exact. -/
theorem legible_toDocument {c : Command Float} (h : ∀ x ∈ c.scalars, Exact x) :
    Legible c.toDocument := by
  cases c with
  | single header e => exact legible_headerFields header e.kind (Edit.legible_toFields h)
  | composite header d ms =>
    have hmembers : Legible (.list (allToDocuments ms)) := legible_allToDocuments h
    exact legible_headerFields header .composite ⟨trivial, hmembers, trivial⟩

theorem legible_allToDocuments {cs : List (Command Float)} (h : ∀ x ∈ scalarsAll cs, Exact x) :
    LegibleItems (allToDocuments cs) := by
  cases cs with
  | nil => exact trivial
  | cons c cs =>
    simp only [scalarsAll, List.forall_mem_append] at h
    exact ⟨legible_toDocument h.1, legible_allToDocuments h.2⟩

end

end Command

namespace Scene

/-- A scene is legible if the floats of its entities are exact. -/
theorem legible_toDocument {s : Scene Float} (h : ∀ x ∈ s.scalars, Exact x) :
    Legible s.toDocument := by
  have hentities :
      Legible (.record (s.entities.entries.map fun e => (toString e.1, e.2.toDocument))) :=
    legible_record_map fun e he => e.2.legible_toDocument fun x hx =>
      h x (List.mem_flatMap.2 ⟨e, he, hx⟩)
  exact ⟨hentities, legible_ofOption fun id _ => legible_ofId id, trivial⟩

end Scene

/-! ## What is asked for -/

/-- Each field that an entity is written with is asked for. -/
theorem Entity.field?_outline {name : String} (h : name ∈ fieldNames) :
    outline.field? name = some .all := by
  simp only [fieldNames, List.mem_cons, List.not_mem_nil, or_false] at h
  rcases h with rfl | rfl | rfl | rfl | rfl | rfl | rfl | rfl | rfl | rfl | rfl | rfl | rfl <;> rfl

/-- The outline of entities asks for every field that an entity writes. -/
theorem Entity.covered_toDocument (e : Entity Float) : Covered outline e.toDocument :=
  coveredFields_iff.2 fun f hf =>
    ⟨.all, text?_spelled f.1, field?_outline (List.mem_map_of_mem hf), covered_all f.2⟩

namespace Scene

/-- The number of an entity is written without escapes. -/
theorem name?_toString (entry : Outline) (id : EntityId) :
    name? (.numbered entry) (spelled (toString id)) = some (toString id) := by
  have hplain : (spelled (toString id)).plain = true := by
    rw [spelled, toList_toString, List.all_eq_true]
    exact fun c hc => isPlain_of_isDigit (Digits.isDigit_of_mem_toDigits hc)
  rw [name?, if_pos hplain, text?_spelled]

/-- The outline of scenes asks for everything that a scene writes. -/
theorem covered_toDocument (s : Scene Float) : Covered outline s.toDocument := by
  have hentities : Covered (.numbered Entity.outline)
      (.record (s.entities.entries.map fun e => (toString e.1, e.2.toDocument))) :=
    coveredFields_iff.2 (List.forall_mem_map.2 fun e _ =>
      ⟨Entity.outline, name?_toString Entity.outline e.1, rfl, e.2.covered_toDocument⟩)
  refine coveredFields_iff.2 ?_
  simp only [List.forall_mem_cons]
  exact ⟨⟨_, text?_spelled _, rfl, hentities⟩, ⟨_, text?_spelled _, rfl, covered_all _⟩,
    List.forall_mem_nil _⟩

end Scene

/-! ## Reading back -/

/-- A scene is read back from its text, whatever the breaks between items. -/
theorem CommandLine.sceneOfText?_write (b : Breaks) {s : Scene Float}
    (h : ∀ x ∈ s.scalars, Exact x) : sceneOfText? (write b s.toDocument) = some s := by
  have hdepth : s.toDocument.depth ≤ maxDepth := Nat.le_trans s.depth_toDocument_le (by decide)
  rw [sceneOfText?, read?_write b (s.legible_toDocument h) s.covered_toDocument, if_pos hdepth]
  exact Scene.ofDocument?_toDocument fun x hx => (h x hx).isFinite

namespace Command

/-- The command that a text spells. -/
def ofText (ids : IdSource) (text : String) : Option (Command Float) :=
  (read? .all text).bind fun d => (ofDocument ids d).1

/-- A command is read back from its text, if that does not go too deep;
otherwise it is not read at all. -/
theorem ofText_write (ids : IdSource) (b : Breaks) {c : Command Float}
    (h : ∀ x ∈ c.scalars, Exact x) :
    ofText ids (write b c.toDocument) = if c.toDocument.depth ≤ maxDepth then some c else none := by
  rw [ofText, read?_write b (c.legible_toDocument h) (covered_all c.toDocument)]
  split
  · rw [Option.bind_some, ofDocument_toDocument ids c fun x hx => (h x hx).isFinite]
  · rfl

end Command

/-- So is a list of commands, which takes one level of its own. -/
theorem CommandLine.commandsOfText?_write (ids : IdSource) (b : Breaks) {cs : List (Command Float)}
    (h : ∀ x ∈ Command.scalarsAll cs, Exact x) :
    commandsOfText? ids (write b (.list (Command.allToDocuments cs))) =
      if (Document.list (Command.allToDocuments cs)).depth ≤ maxDepth then
        (some cs, (Command.numbersAll cs).foldl IdSource.reserve ids)
      else (none, ids) := by
  have hlegible : Legible (.list (Command.allToDocuments cs)) := Command.legible_allToDocuments h
  rw [commandsOfText?, read?_write b hlegible (covered_all _)]
  by_cases hdepth : (Document.list (Command.allToDocuments cs)).depth ≤ maxDepth
  · have hread := Command.allOfDocuments_allToDocuments ids cs fun x hx => (h x hx).isFinite
    simp only [if_pos hdepth]
    exact hread
  · simp only [if_neg hdepth]

/--
Scenes and commands are what their documents say: with finite scalars both read back as they were,
commands of any depth among them. From text as well, if the floats in them are printed and read
exactly: a scene always, a command as long as its text goes no deeper than the reader does.
-/
theorem decode_encode (ids : IdSource) {s : Scene Float} {c : Command Float}
    (hs : ∀ x ∈ s.scalars, Scalar.isFinite x = true)
    (hc : ∀ x ∈ c.scalars, Scalar.isFinite x = true) :
    Scene.ofDocument? s.toDocument = some s ∧ (Command.ofDocument ids c.toDocument).1 = some c ∧
      (∀ b, (∀ x ∈ s.scalars, Exact x) → CommandLine.sceneOfText? (write b s.toDocument) = some s) ∧
      ∀ b, (∀ x ∈ c.scalars, Exact x) →
        Command.ofText ids (write b c.toDocument) = if c.toDocument.depth ≤ maxDepth
          then some c else none :=
  ⟨Scene.ofDocument?_toDocument hs, by rw [Command.ofDocument_toDocument ids c hc],
    fun b hexact => CommandLine.sceneOfText?_write b hexact,
      fun b hexact => Command.ofText_write ids b hexact⟩

/-- Whole numbers and floats under one another,
and an entity that stands at another number than its own. -/
def stocked : Scene Float where
  entities := .ofList [(7, { Entity.new 1 .zone (.splat 1.5) with
    properties := .ofList
      [("stock", .ofList [("boxes", .int 3), ("weight", .number 3), ("tare", .number 0.1)])] })]
  activeZone := some 7

/-- Composites in one another, with flags set on one and not on the other. -/
def restocking : Command Float :=
  .composite { id := 9, transient := true } "restock"
    [.single { id := 4 } (.changeProperty 1 ⟨"stock", "boxes"⟩ (.int 3) (.number 4)),
      .composite { id := 18446744073709551615, forced := true } ""
        [.single { id := 2, dying := true }
          (.reparent 1 ⟨none, .splat (-0.5)⟩ ⟨some 7, ⟨0.1, -0.0, 1e300⟩⟩)]]

/-- A stocked store and the command to restock it are read back, from documents and from text. -/
theorem decode_encode_stocked :
    Scene.ofDocument? stocked.toDocument = some stocked ∧
      (Command.ofDocument {} restocking.toDocument).1 = some restocking ∧
      CommandLine.sceneOfText? (pretty stocked.toDocument) = some stocked ∧
      Command.ofText {} (compact restocking.toDocument) = some restocking := by
  have hexact : ∀ x ∈ stocked.scalars, Exact x := by decide +kernel
  have hexact' : ∀ x ∈ restocking.scalars, Exact x := by decide +kernel
  obtain ⟨hscene, hcommand, htext, htext'⟩ := decode_encode {}
    (show ∀ x ∈ stocked.scalars, Scalar.isFinite x = true by decide +kernel)
    (show ∀ x ∈ restocking.scalars, Scalar.isFinite x = true by decide +kernel)
  have hdepth : restocking.toDocument.depth ≤ maxDepth := by decide +kernel
  exact ⟨hscene, hcommand, htext _ hexact, (htext' _ hexact').trans (if_pos hdepth)⟩

namespace Command

/-- A removal inside composites inside one another. -/
def tower {α : Type} : Nat → Command α
  | 0 => .single { id := 1 } (.remove .entity 5)
  | n + 1 => .composite { id := 1 } "" [tower n]

/-- A tower of composites has no floats in it. -/
theorem scalars_tower {α : Type} (n : Nat) : (tower n : Command α).scalars = [] := by
  induction n with
  | zero => rfl
  | succ n ih => simp [tower, scalars, scalarsAll, ih]

/-- Each composite puts a record and a list around what is in it. -/
theorem depth_tower {α : Type} [Scalar α] (n : Nat) :
    (tower n : Command α).toDocument.depth = 2 * n + 1 := by
  induction n with
  | zero => rfl
  | succ n ih =>
    simp [tower, toDocument, allToDocuments, headerFields, depth, depthFields, depthItems, ofId, ih]
    omega

end Command

/-- Of 64 composites inside one another the text is not read. -/
theorem not_decode_encode :
    ¬∀ c : Command Float, (∀ x ∈ c.scalars, Scalar.isFinite x = true ∧ Exact x) →
    Command.ofText {} (compact c.toDocument) = some c := by
  intro h
  have hnone : Command.ofText {}
      (compact (Command.tower 64 : Command Float).toDocument) = none := by
    rw [compact, Command.ofText_write {} .none (by simp [Command.scalars_tower]),
      Command.depth_tower]
    rfl
  have hsome := h (.tower 64) (by simp [Command.scalars_tower])
  rw [hnone] at hsome
  exact nomatch hsome

end SceneGuard
