import Mathlib.Data.List.Basic
import SceneGuard.Codec.Entity
import SceneGuard.Proofs.Json.Tokens

/-!
# Entities and scenes read back from their documents

What is written for a scalar, a vector, an entity or a scene reads back as it was, if its scalars
are finite. Main statements: `PropertyValue.ofDocument?_toDocument`, `Entity.ofDocument?_toDocument`
and `Scene.ofDocument?_toDocument`.
-/

namespace SceneGuard

/-!
## Tables

Tables are written by ascending keys, so that each entry that is read goes behind those read before
it.
-/

namespace Table

variable {κ ν : Type} [LT κ] [DecidableEq κ] [DecidableLT κ] [LinearKey κ]

/-- An entry with the greatest key goes to the end. -/
theorem Entries.insert_of_forall_lt {k : κ} {v : ν} {es : List (κ × ν)} (h : ∀ e ∈ es, e.1 < k) :
    Entries.insert k v es = es ++ [(k, v)] := by
  induction es with
  | nil => rfl
  | cons e es ih =>
    have hlt : e.1 < k := h e List.mem_cons_self
    have hnlt : ¬k < e.1 := fun hk => LinearKey.irrefl _ (LinearKey.trans hk hlt)
    have hne : k ≠ e.1 := fun hk => LinearKey.irrefl k (hk ▸ hlt)
    simp [Entries.insert, hnlt, hne, ih fun e he => h e (List.mem_cons_of_mem _ he)]

/-- Entries that come by ascending key are put one behind the other. -/
theorem entries_foldl_insert (t : Table κ ν) {es : List (κ × ν)}
    (hes : es.Pairwise fun a b => a.1 < b.1) (ht : ∀ a ∈ t.entries, ∀ e ∈ es, a.1 < e.1) :
    (es.foldl (fun t e => t.insert e.1 e.2) t).entries = t.entries ++ es := by
  induction es generalizing t with
  | nil => simp
  | cons e es ih =>
    obtain ⟨he, hes⟩ := List.pairwise_cons.1 hes
    -- the keys ascend, so each entry goes to the end
    have hinsert : (t.insert e.1 e.2).entries = t.entries ++ [e] :=
      Entries.insert_of_forall_lt fun a ha => ht a ha e List.mem_cons_self
    have hbefore : ∀ a ∈ (t.insert e.1 e.2).entries, ∀ e ∈ es, a.1 < e.1 := by
      intro a ha e' he'
      rw [hinsert, List.mem_append, List.mem_singleton] at ha
      rcases ha with ha | rfl
      · exact ht a ha e' (List.mem_cons_of_mem _ he')
      · exact he e' he'
    rw [List.foldl_cons, ih _ hes hbefore, hinsert, List.append_assoc, List.singleton_append]

/-- The entries of a table make up the table. -/
@[simp] theorem ofList_entries (t : Table κ ν) : ofList t.entries = t :=
  ext_entries (entries_foldl_insert empty t.ascending (by simp [empty]))

end Table

/-!
## Fields, lists and maps

There is one lemma for each way of putting documents together: if the parts are read back, so is the
whole.
-/

namespace Document

section

variable {α β : Type}

/-- A field that is written once is found. -/
theorem field_eq_given {name : String} {d : Document α} {fs : List (String × Document α)}
    (hfs : (fs.map Prod.fst).Nodup) (h : (name, d) ∈ fs) : field name fs = .given d := by
  have hfilter : fs.filter (fun f => f.1 = name) = [(name, d)] := by
    induction fs with
    | nil => simp at h
    | cons f fs ih =>
      obtain ⟨hf, hfs⟩ := List.nodup_cons.1 hfs
      have hother : ∀ g ∈ fs, g.1 ≠ f.1 := fun g hg hgf => hf (hgf ▸ List.mem_map_of_mem hg)
      rcases List.mem_cons.1 h with rfl | h
      · simpa using hother
      · have hne : f.1 ≠ name := (hother _ h).symm
        simp [hne, ih hfs h]
  rw [field, hfilter]

/-- Each field of a record is found in it, if its names differ. -/
theorem exists_fields? (l : Latitude) (names : List String) {d : Document α}
    {fs : List (String × Document α)} (hd : d = .record fs) (hfs : (fs.map Prod.fst).Nodup) :
    ∃ f, d.fields? l names = some f ∧ ∀ g ∈ fs, f g.1 = .given g.2 :=
  ⟨fun name => field name fs, hd ▸ rfl, fun _ hg => field_eq_given hfs hg⟩

/-- Items that are read back one by one are read back as a list. -/
theorem mapM_map_of_forall {γ : Type} {read : γ → Option β} {write : β → γ} {bs : List β}
    (h : ∀ b ∈ bs, read (write b) = some b) : (bs.map write).mapM read = some bs := by
  induction bs with
  | nil => rfl
  | cons b bs ih =>
    simp [h b List.mem_cons_self, ih fun b hb => h b (List.mem_cons_of_mem _ hb)]

/-- A list reads back if its items do. -/
theorem asList?_map {read : Document α → Option β} {write : β → Document α} {bs : List β}
    (h : ∀ b ∈ bs, read (write b) = some b) : asList? read (.list (bs.map write)) = some bs :=
  mapM_map_of_forall h

/-- A map reads back if its entries do. -/
theorem asMap?_map {read : String → Document α → Option β}
    {write : β → String × Document α} {bs : List β}
    (h : ∀ b ∈ bs, read (write b).1 (write b).2 = some b) :
    asMap? read (.record (bs.map write)) = some bs :=
  mapM_map_of_forall h

/-- A table that is written as a map reads back if its entries do. -/
theorem asMap?_entries {κ ν : Type} [LT κ] [DecidableEq κ] [DecidableLT κ] [LinearKey κ]
    {read : String → Document α → Option (κ × ν)} {write : κ × ν → String × Document α}
    (t : Table κ ν) (h : ∀ e ∈ t.entries, read (write e).1 (write e).2 = some e) :
    (asMap? read (.record (t.entries.map write))).map Table.ofList = some t := by
  rw [asMap?_map h, Option.map_some, Table.ofList_entries]

/-- What may be missing reads back if it does when there, and is not written as nothing. -/
theorem nullable_ofOption {read : Document α → Option β} {write : β → Document α} (o : Option β)
    (hnull : ∀ b, write b ≠ .null) (h : ∀ b ∈ o, read (write b) = some b) :
    (Field.given (ofOption write o)).nullable read = some o := by
  cases o with
  | none => rfl
  | some b =>
    rw [ofOption, Field.nullable, h b rfl]
    · rfl
    · exact hnull b

/-- A written number of an entity is in range, and read as itself. -/
@[simp] theorem asUInt64?_ofId (id : UInt64) : asUInt64? (ofId id : Document α) = some id := by
  have hrange : 0 ≤ (id.toNat : Int) ∧ (id.toNat : Int) < UInt64.size :=
    ⟨Int.natCast_nonneg _, by exact_mod_cast id.toNat_lt⟩
  rw [ofId, asUInt64?, if_pos hrange, Int.toNat_natCast, UInt64.ofNat_toNat]

/-- No number of an entity is written as null. -/
theorem ofId_ne_null (id : UInt64) : (ofId id : Document α) ≠ .null := nofun

/-- A whole number of 64 bits is read back. -/
@[simp] theorem asInt64?_toInt (i : Int64) : asInt64? (.int i.toInt : Document α) = some i := by
  rw [asInt64?, if_pos ⟨i.minValue_le_toInt, i.toInt_le⟩, Int64.ofInt_toInt]

end

/-! ## Vectors -/

section

variable {α : Type} [Scalar α]

/-- A finite number is written as a number, and not as null. -/
theorem ofScalar_of_isFinite {x : α} (h : Scalar.isFinite x = true) :
    ofScalar x = .number x := if_pos h

@[simp] theorem asScalar?_ofScalar {x : α} (h : Scalar.isFinite x = true) :
    asScalar? (ofScalar x) = some x := by
  rw [ofScalar_of_isFinite h, asScalar?]

/-- A vector is read back if its coordinates are finite. -/
theorem asVec3?_ofVec3 {v : Vec3 α} (h : ∀ x ∈ v.toList, Scalar.isFinite x = true) :
    asVec3? (ofVec3 v) = some v := by
  simp only [Vec3.toList, List.forall_mem_cons] at h
  simp [ofVec3, Vec3.toList, asVec3?, h]

theorem ofVec3_ne_null (v : Vec3 α) : ofVec3 v ≠ .null := nofun

end

end Document

/-- The scalars in a rotation. -/
def AxisAngle.scalars {α : Type} (r : AxisAngle α) : List α := r.axis.toList ++ [r.angle]

/-- The scalars in a triangle. -/
def Triangle.scalars {α : Type} (t : Triangle α) : List α := t.a.toList ++ t.b.toList ++ t.c.toList

namespace Document

variable {α : Type} [Scalar α]

/-- A rotation is read back from its four numbers. -/
theorem asAxisAngle?_ofAxisAngle {r : AxisAngle α} (h : ∀ x ∈ r.scalars, Scalar.isFinite x = true) :
    asAxisAngle? (ofAxisAngle r) = some r := by
  simp only [AxisAngle.scalars, Vec3.toList, List.cons_append, List.nil_append,
    List.forall_mem_cons] at h
  simp [ofAxisAngle, Vec3.toList, asAxisAngle?, h]

/-- A triangle is read back from its three corners. -/
theorem asTriangle?_ofTriangle {t : Triangle α} (h : ∀ x ∈ t.scalars, Scalar.isFinite x = true) :
    asTriangle? (ofTriangle t) = some t := by
  simp only [Triangle.scalars, List.forall_mem_append] at h
  obtain ⟨⟨ha, hb⟩, hc⟩ := h
  simp [ofTriangle, asTriangle?, asVec3?_ofVec3 ha, asVec3?_ofVec3 hb, asVec3?_ofVec3 hc]

end Document

open Document

/-! ## Properties -/

namespace PropertyValue

variable {α : Type}

/-- The scalars in a value; whole numbers are none. -/
def scalars : PropertyValue α → List α
  | .number x => [x]
  | .vector v => v.toList
  | .bool _ | .int _ | .text _ => []

variable [Scalar α]

/-- A value reads back as the same kind of value. -/
theorem ofDocument?_toDocument {v : PropertyValue α}
    (h : ∀ x ∈ v.scalars, Scalar.isFinite x = true) : ofDocument? v.toDocument = some v := by
  cases v with
  | bool b => rfl
  | int n => simp [toDocument, ofDocument?]
  | number x => rw [toDocument, ofScalar_of_isFinite (h x List.mem_cons_self), ofDocument?]
  | text s => rfl
  | vector w =>
    have hread : ofDocument? (.vector w : PropertyValue α).toDocument = (asVec3? (ofVec3 w)).map
      .vector := rfl
    rw [hread, asVec3?_ofVec3 h, Option.map_some]

end PropertyValue

/-- A key of a property is read back, also by a reader that allows more forms of it. -/
theorem PropertyKey.ofDocument?_toDocument {α : Type} [Scalar α] (l : Latitude) (k : PropertyKey) :
    PropertyKey.ofDocument? l (k.toDocument : Document α) = some k := by
  simp [PropertyKey.ofDocument?, PropertyKey.toDocument, fields?, field, Field.required, asText?]

/-- The name of a kind is read back as that kind. -/
theorem EntityKind.ofName?_name (k : EntityKind) : EntityKind.ofName? k.name = some k := by
  cases k <;> decide

/-! ## Entities -/

namespace Entity

variable {α : Type}

/-- The scalars in a property sheet. -/
def sheetScalars (sheet : Table String (PropertyValue α)) : List α :=
  sheet.entries.flatMap fun e => e.2.scalars

/-- The scalars in property sheets. -/
def propertyScalars (p : Properties α) : List α := p.entries.flatMap fun e => sheetScalars e.2

/-- The scalars in an entity. -/
def scalars (e : Entity α) : List α :=
  e.position.toList ++ e.rotation.scalars ++ e.scale.toList ++ e.size.toList
    ++ e.minimumExtent.toList.flatMap Vec3.toList ++ e.border.toList ++ propertyScalars e.properties
    ++ e.mesh.flatMap Triangle.scalars

variable [Scalar α]

/-- A sheet is read back: its keys are written in ascending order, and no key twice. -/
theorem sheetOfDocument?_record {sheet : Table String (PropertyValue α)}
    (h : ∀ x ∈ sheetScalars sheet, Scalar.isFinite x = true) :
    sheetOfDocument? (.record (sheet.entries.map fun e => (e.1, e.2.toDocument))) = some sheet := by
  refine asMap?_entries sheet fun e he => ?_
  have hvalue : ∀ x ∈ e.2.scalars, Scalar.isFinite x = true := fun x hx =>
    h x (List.mem_flatMap.2 ⟨e, he, hx⟩)
  simp [PropertyValue.ofDocument?_toDocument hvalue]

/-- All the sheets of an entity are read back. -/
theorem propertiesOfDocument?_propertiesToDocument {p : Properties α}
    (h : ∀ x ∈ propertyScalars p, Scalar.isFinite x = true) :
    propertiesOfDocument? (propertiesToDocument p) = some p := by
  refine asMap?_entries p fun e he => ?_
  have hsheet : ∀ x ∈ sheetScalars e.2, Scalar.isFinite x = true := fun x hx =>
    h x (List.mem_flatMap.2 ⟨e, he, hx⟩)
  simp [sheetOfDocument?_record hsheet]

/-- An entity reads back from its document, whatever the latitude. -/
theorem ofDocument?_toDocument (l : Latitude) {e : Entity α}
    (h : ∀ x ∈ e.scalars, Scalar.isFinite x = true) : ofDocument? l e.toDocument = some e := by
  simp only [scalars, List.forall_mem_append] at h
  obtain ⟨⟨⟨⟨⟨⟨⟨hposition, hrotation⟩, hscale⟩, hsize⟩, hextent⟩, hborder⟩, hproperties⟩, hmesh⟩ :=
    h
  have hchildren : asList? asUInt64? (.list (e.children.map ofId) : Document α) = some e.children :=
    asList?_map fun id _ => asUInt64?_ofId id
  have htriangles : asList? asTriangle? (.list (e.mesh.map ofTriangle)) = some e.mesh :=
    asList?_map fun t ht => asTriangle?_ofTriangle fun x hx =>
      hmesh x (List.mem_flatMap.2 ⟨t, ht, hx⟩)
  have hparent : (Field.given (ofOption ofId e.parent : Document α)).nullable asUInt64? =
      some e.parent :=
    nullable_ofOption e.parent ofId_ne_null fun id _ => asUInt64?_ofId id
  have hminimum : (Field.given (ofOption ofVec3 e.minimumExtent)).nullable asVec3? =
      some e.minimumExtent :=
    nullable_ofOption e.minimumExtent ofVec3_ne_null fun v hv => asVec3?_ofVec3 fun x hx =>
      hextent x (List.mem_flatMap.2 ⟨v, Option.mem_toList.2 hv, hx⟩)
  -- every field of the record is given, so no default of the latitude is used
  obtain ⟨f, hf, hfields⟩ := exists_fields? l fieldNames (rfl : e.toDocument = .record _) (by simp)
  simp only [List.forall_mem_cons, List.not_mem_nil, false_implies, implies_true,
    and_true] at hfields
  rw [ofDocument?, hf, Option.bind_eq_bind, Option.bind_some]
  simp only [hfields, Field.required, Field.orElse, asUInt64?_ofId, asText?, asName?,
    Option.bind_some, EntityKind.ofName?_name, hchildren, htriangles, hparent, hminimum,
    asVec3?_ofVec3 hposition, asAxisAngle?_ofAxisAngle hrotation, asVec3?_ofVec3 hscale,
    asVec3?_ofVec3 hsize, asVec3?_ofVec3 hborder,
    propertiesOfDocument?_propertiesToDocument hproperties]
  rfl

end Entity

/-! ## Scenes -/

namespace Scene

variable {α : Type}

/-- The scalars in the entities of a scene. -/
def scalars (s : Scene α) : List α := s.entities.entries.flatMap fun e => e.2.scalars

/-- A number as the key of a record is the row of its decimal digits. -/
theorem toList_toString (id : EntityId) : (toString id).toList = Nat.toDigits 10 id.toNat := by
  have hrepr : toString id = String.ofList (Nat.toDigits 10 id.toNat) := rfl
  rw [hrepr, String.toList_ofList]

/-- A number reads back from the name of its field. -/
theorem keyOfText?_toString (id : EntityId) : keyOfText? (toString id) = some id := by
  have hdigits : (Nat.toDigits 10 id.toNat).all Char.isDigit = true :=
    List.all_eq_true.2 fun _ => Digits.isDigit_of_mem_toDigits
  have hproper := Digits.proper_toDigits id.toNat
  simp only [keyOfText?, toList_toString, hdigits, Digits.toNat_toDigits, Bool.not_true,
    Bool.or_false, hproper]
  simp [id.toNat_lt]

variable [Scalar α]

/-- A scene reads back from its document. -/
theorem ofDocument?_toDocument {s : Scene α} (h : ∀ x ∈ s.scalars, Scalar.isFinite x = true) :
    ofDocument? s.toDocument = some s := by
  have hentities : entitiesOfDocument? (.record (s.entities.entries.map fun e =>
      (toString e.1, e.2.toDocument))) = some s.entities := by
    refine asMap?_entries s.entities fun e he => ?_
    have hentity : ∀ x ∈ e.2.scalars, Scalar.isFinite x = true := fun x hx =>
      h x (List.mem_flatMap.2 ⟨e, he, hx⟩)
    simp [keyOfText?_toString, Entity.ofDocument?_toDocument .strict hentity]
  have hzone : (Field.given (ofOption ofId s.activeZone : Document α)).nullable asUInt64? =
      some s.activeZone :=
    nullable_ofOption s.activeZone ofId_ne_null fun id _ => asUInt64?_ofId id
  simp [ofDocument?, toDocument, fields?, field, Field.required, hentities, hzone]

end Scene

end SceneGuard
