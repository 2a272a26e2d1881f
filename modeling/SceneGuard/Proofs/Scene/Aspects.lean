import SceneGuard.Proofs.Scene.Commands
import SceneGuard.Proofs.Scene.Edits

/-!
# What edits set

An edit that neither adds nor removes sets some aspects of one entity: its position, rotation,
scale, parent or a property. It alters that entity and else only lists of children (`bare_edit`), so
that all other aspects stay as they are (`agreesBut_edit`). Edits are faithful to a scene when each
goes from the values that the edits before it leave (`Scene.Faithful`). Turned around in reverse,
they give back what was there, even if some of them were never made (`AgreesBut.revert`).
-/

namespace SceneGuard

variable {α : Type}

/-!
## Aspects of an entity

An edit is described by the aspects it sets, the values it starts at and the values it ends at. The
list of children is no aspect: the scene keeps it in step with the parents.
-/

/-- What an edit can set of an entity that is there. -/
inductive Aspect where
  | position
  | rotation
  | scale
  | parent
  | property (key : PropertyKey)
  deriving DecidableEq

/-- Two entities are the same in an aspect. -/
def Aspect.Same : Aspect → Entity α → Entity α → Prop
  | .position, q, q' => q.position = q'.position
  | .rotation, q, q' => q.rotation = q'.rotation
  | .scale, q, q' => q.scale = q'.scale
  | .parent, q, q' => q.parent = q'.parent
  | .property key, q, q' => q.property key = q'.property key

namespace Aspect.Same

variable {a : Aspect} {q q' q'' : Entity α}

/-- An entity is like itself in every aspect. -/
theorem refl (a : Aspect) (q : Entity α) : a.Same q q := by
  cases a <;> rfl

/-- Likeness in an aspect goes both ways. -/
theorem symm (h : a.Same q q') : a.Same q' q := by
  cases a <;> exact Eq.symm h

theorem trans (h : a.Same q q') (h' : a.Same q' q'') : a.Same q q'' := by
  cases a <;> exact Eq.trans h h'

end Aspect.Same

/-- An entity without its list of children, which is none of its aspects. -/
def Entity.bare (q : Entity α) : Entity α := { q with children := [] }

theorem Aspect.same_bare {a : Aspect} {q q' : Entity α} : a.Same q.bare q'.bare ↔ a.Same q q' := by
  cases a <;> exact Iff.rfl

/-- To set a property changes that one and no other. -/
theorem Entity.property_setProperty (q : Entity α) (key key' : PropertyKey)
    (value : PropertyValue α) :
    (q.setProperty key value).property key' = if key' = key then some value
      else q.property key' := by
  obtain ⟨sheet, name⟩ := key
  obtain ⟨sheet', name'⟩ := key'
  unfold setProperty property
  simp only [Table.get?_insert, PropertyKey.mk.injEq]
  by_cases hsheet : sheet' = sheet
  · subst hsheet
    cases hq : q.properties.get? sheet' with
    | none => by_cases hname : name' = name <;> simp [Table.get?_insert, hname]
    | some t => by_cases hname : name' = name <;> simp [Table.get?_insert, hname]
  · simp [hsheet]

namespace Edit

/-- The aspects that an edit sets. Adds and removes are not about aspects. -/
def sets : Edit α → Aspect → Prop
  | .add .., _ | .remove .., _ => False
  | .move .., a => a = .position
  | .rotate .., a => a = .rotation
  | .scale .., a => a = .position ∨ a = .scale
  | .reparent .., a => a = .parent ∨ a = .position
  | .changeProperty _ key _ _, a => a = .property key

/-- The entity has the values that an edit leaves. -/
def EndsAt : Edit α → Entity α → Prop
  | .add .., _ | .remove .., _ => True
  | .move _ _ after, q => q.position = after
  | .rotate _ _ after, q => q.rotation = after
  | .scale _ _ after, q => q.position = after.position ∧ q.scale = after.scale
  | .reparent _ _ after, q => q.parent = after.parent ∧ q.position = after.position
  | .changeProperty _ key _ after, q => q.property key = some after

/-- The entity has the values that an edit goes from. -/
def StartsAt (e : Edit α) (q : Entity α) : Prop := e.reset.EndsAt q

variable {e : Edit α} {q q' : Entity α}

/-- A reset is about the entity of its edit. -/
@[simp] theorem entityId_reset (e : Edit α) : e.reset.entityId = e.entityId := by
  cases e <;> rfl

@[simp] theorem kind_reset (e : Edit α) : e.reset.kind = e.kind := by
  cases e <;> rfl

@[simp] theorem sets_reset (e : Edit α) : e.reset.sets = e.sets := by
  cases e <;> rfl

@[simp] theorem stays_reset (e : Edit α) : e.reset.stays = e.stays := by
  cases e <;> rfl

/-- What an edit makes of the entity that it is about. -/
def alter : Edit α → Entity α → Entity α
  | .add .., q | .remove .., q => q
  | .move _ _ after, q => { q with position := after }
  | .rotate _ _ after, q => { q with rotation := after }
  | .scale _ _ after, q => { q with position := after.position, scale := after.scale }
  | .reparent _ _ after, q => { q with parent := after.parent, position := after.position }
  | .changeProperty _ key _ after, q => q.setProperty key after

theorem endsAt_alter (e : Edit α) (q : Entity α) : e.EndsAt (e.alter q) := by
  cases e with
  | add | remove => trivial
  | move | rotate => rfl
  | scale | reparent => exact ⟨rfl, rfl⟩
  | changeProperty => rw [EndsAt, alter, Entity.property_setProperty, if_pos rfl]

theorem same_alter {a : Aspect} (ha : ¬e.sets a) (q : Entity α) : a.Same q (e.alter q) := by
  cases e with
  | add | remove => exact .refl a q
  | move | rotate => cases a <;> first | exact absurd rfl ha | rfl
  | scale | reparent =>
    cases a <;> first | exact absurd (.inl rfl) ha | exact absurd (.inr rfl) ha | rfl
  | changeProperty id key before after =>
    cases a with
    | property key' =>
      have hkey : key' ≠ key := fun hkey => ha (congrArg Aspect.property hkey)
      rw [Aspect.Same, alter, Entity.property_setProperty, if_neg hkey]
    | _ => rfl

/-- What it does to an entity does not depend on the list of children. -/
theorem bare_alter (e : Edit α) (q : Entity α) : (e.alter q).bare = e.alter q.bare := by
  cases e <;> rfl

theorem endsAt_bare : e.EndsAt q.bare ↔ e.EndsAt q := by
  cases e <;> exact Iff.rfl

theorem startsAt_bare : e.StartsAt q.bare ↔ e.StartsAt q := endsAt_bare

/-- Entities at which the same edit ends are alike in what it sets. -/
theorem same_of_endsAt (h : e.EndsAt q) (h' : e.EndsAt q') {a : Aspect} (ha : e.sets a) :
    a.Same q q' := by
  cases e with
  | add | remove => cases ha
  | move | rotate | changeProperty =>
    cases ha
    exact Eq.trans h h'.symm
  | scale | reparent =>
    rcases ha with rfl | rfl
    · exact h.1.trans h'.1.symm
    · exact h.2.trans h'.2.symm

end Edit

/-!
## Scenes that agree but for some aspects

Differences add up along a run: what each of two edits may have changed, both may have. An aspect
can be struck off again when it is found to be the same after all.
-/

namespace Scene

variable {s t t' m : Scene α} {F G : EntityId → Aspect → Prop} {e : Edit α} {es : List (Edit α)}

/-- Both scenes have the same entities, which are the same in all aspects but those of `F`. -/
structure AgreesBut (F : EntityId → Aspect → Prop) (s t : Scene α) : Prop where
  present : ∀ id, (s.get? id).isSome = (t.get? id).isSome
  same : ∀ {id q q'}, s.get? id = some q → t.get? id = some q' → ∀ a, ¬F id a → a.Same q q'

/-- Every entity stands as it does in the other scene: position, rotation,
scale, parent and properties. -/
def StandsAs (s t : Scene α) : Prop := s.AgreesBut (fun _ _ => False) t

namespace AgreesBut

/-- A scene agrees with itself, whatever is left out. -/
theorem refl (F : EntityId → Aspect → Prop) (s : Scene α) : s.AgreesBut F s where
  present _ := rfl
  same hq hq' a _ := by
    rw [hq] at hq'
    cases hq'
    exact .refl a _

theorem symm (h : s.AgreesBut F t) : t.AgreesBut F s where
  present id := (h.present id).symm
  same hq hq' a ha := (h.same hq' hq a ha).symm

/-- Scenes that agree have the same entities. -/
theorem exists_get? (h : s.AgreesBut F t) {id : EntityId} {q : Entity α} (hq : s.get? id = some q) :
    ∃ q', t.get? id = some q' := by
  rw [← Option.isSome_iff_exists, ← h.present, hq]
  rfl

theorem trans (h : s.AgreesBut F m) (h' : m.AgreesBut G t) :
    s.AgreesBut (fun id a => F id a ∨ G id a) t where
  present id := (h.present id).trans (h'.present id)
  same {id q q'} hq hq' a ha := by
    obtain ⟨b, hb⟩ := h.exists_get? hq
    exact (h.same hq hb a fun hF => ha (.inl hF)).trans (h'.same hb hq' a fun hG => ha (.inr hG))

/-- With more left out scenes agree all the more. -/
theorem mono (h : s.AgreesBut F t) (hF : ∀ id a, F id a → G id a) : s.AgreesBut G t where
  present := h.present
  same hq hq' a ha := h.same hq hq' a fun h => ha (hF _ a h)

/-- Where the aspects of `G` are the same after all, they need not be left out. -/
theorem fill (h : s.AgreesBut (fun id a => F id a ∨ G id a) t)
    (hfill : ∀ {id q q'}, s.get? id = some q → t.get? id = some q' → ∀ a, G id a → a.Same q q') :
    s.AgreesBut F t where
  present := h.present
  same {id q q'} hq hq' a ha := by
    by_cases hG : G id a
    · exact hfill hq hq' a hG
    · exact h.same hq hq' a fun h => h.elim ha hG

end AgreesBut

/-! ## One edit -/

/-- The entity at a number, without its list of children. -/
def bare (s : Scene α) (id : EntityId) : Option (Entity α) := (s.get? id).map Entity.bare

/-- An entity that is there is seen without its list. -/
theorem bare_of_get? {id : EntityId} {q : Entity α} (hq : s.get? id = some q) :
    s.bare id = some q.bare := by
  rw [bare, hq]
  rfl

/-- An edit that neither adds nor removes alters its own entity, and else only lists of children. -/
theorem bare_edit (hkind : e.kind.isAddOrRemove = false) (h : s.edit e = .ok t) (x : EntityId) :
    t.bare x = (s.bare x).map fun q => if x = e.entityId then e.alter q else q := by
  have hupdate : s.update e.entityId e.alter = .ok t →
      t.bare x = (s.bare x).map fun q => if x = e.entityId then e.alter q else q := by
    intro hu
    obtain ⟨-, rfl⟩ := update_eq_ok.1 hu
    unfold bare
    rw [get?_modify]
    split
    · next hx => simp only [hx, Option.map_map, Function.comp_def, Edit.bare_alter]
    · rw [Option.map_id']
  cases e with
  | add | remove => cases hkind
  | move | rotate | scale | changeProperty => exact hupdate h
  | reparent id before after =>
    obtain ⟨-, q, hq, rfl⟩ := reparent_eq_ok.1 h
    unfold bare
    rw [get?_reparented s id x q after hq, Option.map_map, Option.map_map]
    congr 1
    funext b
    -- whether a list of children loses the entity, gets it or neither, it is not seen
    by_cases hx : x = id <;> simp only [Function.comp_apply, Edit.entityId, hx, if_true, if_false]
    all_goals (repeat' split) <;> rfl

/-- What an edit sets, of the entity it is about. -/
def Sets (e : Edit α) (id : EntityId) (a : Aspect) : Prop := id = e.entityId ∧ e.sets a

/-- A reset sets the same aspects of the same entities. -/
theorem sets_reset (e : Edit α) : Sets e.reset = Sets e := by
  unfold Sets
  rw [Edit.entityId_reset, Edit.sets_reset]

/-- An edit sets what it sets, and leaves everything else. -/
theorem agreesBut_edit (hkind : e.kind.isAddOrRemove = false) (h : s.edit e = .ok t) :
    s.AgreesBut (Sets e) t ∧ ∃ q, t.get? e.entityId = some q ∧ e.EndsAt q := by
  -- an edit alters the entity it names, and nothing of its links is in a bare entity
  have hbare := bare_edit hkind h
  refine ⟨⟨fun x => ?_, fun {x q q'} hq hq' a ha => ?_⟩, ?_⟩
  · have hx := congrArg Option.isSome (hbare x)
    rw [Option.isSome_map, bare, bare, Option.isSome_map, Option.isSome_map] at hx
    exact hx.symm
  · have hx := hbare x
    rw [bare_of_get? hq, bare_of_get? hq', Option.map_some, Option.some.injEq] at hx
    rw [← Aspect.same_bare, hx]
    split
    · next hxe => exact Edit.same_alter (fun hset => ha ⟨hxe, hset⟩) q.bare
    · exact .refl a q.bare
  · obtain ⟨q, hq⟩ := exists_of_edit (Edit.adds?_of_kind hkind) h
    have hx := hbare e.entityId
    rw [bare_of_get? hq, Option.map_some, if_pos rfl] at hx
    obtain ⟨q', hq', hx⟩ := Option.map_eq_some_iff.1 hx
    exact ⟨q', hq', Edit.endsAt_bare.1 (hx ▸ Edit.endsAt_alter e q.bare)⟩

/-!
## Runs of edits

A reset writes the value from before, whatever it finds. So it does not matter to what is restored
whether the edit was made, refused or overwritten.
-/

/-- After some edits a scene is as before, but for what they set. -/
theorem Takes.agreesBut (h : s.Takes es t) (hkinds : ∀ e ∈ es, e.kind.isAddOrRemove = false) :
    s.AgreesBut (fun id a => ∃ e ∈ es, Sets e id a) t := by
  induction h with
  | nil s => exact .refl _ s
  | @cons s m t e es he hes ih =>
    have hfirst := (agreesBut_edit (hkinds e List.mem_cons_self) he).1
    have hrest := ih fun e' he' => hkinds e' (List.mem_cons_of_mem _ he')
    refine (hfirst.trans hrest).mono fun id a ha => ?_
    rcases ha with ha | ⟨e', he', ha⟩
    · exact ⟨e, List.mem_cons_self, ha⟩
    · exact ⟨e', List.mem_cons_of_mem _ he', ha⟩

/-- Edits that stay are accepted wherever the entities that they are about are there. -/
theorem exists_takes (hstays : ∀ e ∈ es, e.stays = true)
    (hpresent : ∀ e ∈ es, ∃ q, s.get? e.entityId = some q) : ∃ t, s.Takes es t := by
  -- on the edits; none that stays takes an entity away from the later ones
  induction es generalizing s with
  | nil => exact ⟨s, .nil s⟩
  | cons e es ih =>
    have he := hstays e List.mem_cons_self
    obtain ⟨f, _, _, _, hedit⟩ := Edit.update_of_stays he
    have hm : s.edit e = .ok (s.modify e.entityId f) := by
      rw [hedit]
      exact update_eq_ok.2 ⟨hpresent e List.mem_cons_self, rfl⟩
    have hagrees := (agreesBut_edit (Edit.kind_of_stays he) hm).1
    obtain ⟨t, ht⟩ := ih (fun e' he' => hstays e' (List.mem_cons_of_mem _ he')) fun e' he' => by
      obtain ⟨q, hq⟩ := hpresent e' (List.mem_cons_of_mem _ he')
      exact hagrees.exists_get? hq
    exact ⟨t, .cons hm ht⟩

/-- The scene after an edit: the same one when the edit is refused. -/
def after (s : Scene α) (e : Edit α) : Scene α := (s.apply (.single { id := 0 } e)).1

theorem agreesBut_after (hkind : e.kind.isAddOrRemove = false) (s : Scene α) :
    s.AgreesBut (Sets e) (s.after e) := by
  unfold after apply
  cases h : s.edit e with
  | ok t => exact (agreesBut_edit hkind h).1
  | error x => exact .refl _ s

/-- Made one after the other, the edits each go from the values that are there. -/
def Faithful : Scene α → List (Edit α) → Prop
  | _, [] => True
  | s, e :: es => (∃ q, s.get? e.entityId = some q ∧ e.StartsAt q) ∧ Faithful (s.after e) es

/--
Edits that are faithful to a scene, turned around in reverse, restore it from any scene that differs
from it only in what they set.
-/
theorem AgreesBut.revert (hfaithful : s.Faithful es)
    (hkinds : ∀ e ∈ es, e.kind.isAddOrRemove = false)
    (h : t.AgreesBut (fun id a => F id a ∨ ∃ e ∈ es, Sets e id a) s)
    (hrun : t.Takes (es.reverse.map Edit.reset) t') : t'.AgreesBut F s := by
  induction es generalizing s F t' with
  | nil =>
    cases hrun
    exact h.mono fun _ _ ha => ha.resolve_right fun ⟨_, he, _⟩ => absurd he List.not_mem_nil
  | cons e es ih =>
    obtain ⟨⟨b, hb, hstart⟩, hfaithful⟩ := hfaithful
    have hkind := hkinds e List.mem_cons_self
    rw [List.reverse_cons, List.map_append] at hrun
    obtain ⟨m, hm, hlast⟩ := takes_append.1 hrun
    -- up to what the first edit sets, the others restore the scene that they started from
    have hsecond : t.AgreesBut (fun id a => (F id a ∨ Sets e id a) ∨ ∃ e' ∈ es, Sets e' id a)
        (s.after e) := by
      refine (h.trans (agreesBut_after hkind s)).mono fun id a ha => ?_
      rcases ha with (ha | ⟨e', he', ha⟩) | ha
      · exact .inl (.inl ha)
      · rcases List.mem_cons.1 he' with rfl | he'
        · exact .inl (.inr ha)
        · exact .inr ⟨e', he', ha⟩
      · exact .inl (.inr ha)
    have hafter := ih hfaithful (fun e' he' => hkinds e' (List.mem_cons_of_mem _ he')) hsecond hm
    have hback : m.AgreesBut (fun id a => F id a ∨ Sets e id a) s :=
      (hafter.trans (agreesBut_after hkind s).symm).mono fun _ _ ha => ha.elim (fun ha => ha) .inr
    -- and the first edit, turned around, gives back that
    cases hlast with
    | cons he hnil =>
      cases hnil
      obtain ⟨hagrees, q, hq, hend⟩ := agreesBut_edit (by rwa [Edit.kind_reset]) he
      rw [sets_reset] at hagrees
      rw [Edit.entityId_reset] at hq
      refine ((hagrees.symm.trans hback).mono fun id a ha => ?_).fill (G := Sets e) ?_
      · exact ha.elim .inr fun ha => ha
      · rintro id q₁ q₂ hq₁ hq₂ a ⟨rfl, ha⟩
        rw [hq] at hq₁
        rw [hb] at hq₂
        cases hq₁
        cases hq₂
        exact Edit.same_of_endsAt hend hstart (by rwa [Edit.sets_reset])

end Scene

end SceneGuard
