import SceneGuard.Proofs.Results
import SceneGuard.Proofs.Scene.Links

/-!
# What an edit does

An edit that a scene accepts puts an entity in, takes one out, hangs one under another parent, or
changes one where it is (`Scene.Makes`). Which it was and what the scene checked for it is all that
later modules need to know of `Scene.edit` (`makes_of_edit`).
-/

namespace SceneGuard

variable {α : Type}

/-! ## What an edit is about -/

namespace Edit

/-- The entity that an edit puts in. -/
def adds? : Edit α → Option (Entity α)
  | .add _ e => some e
  | _ => none

/-- The number that an edit takes out. -/
def removes? : Edit α → Option EntityId
  | .remove _ id => some id
  | _ => none

/-- The parent that an edit gives its entity. -/
def parent? : Edit α → Option EntityId
  | .add _ e => e.parent
  | .reparent _ _ after => after.parent
  | _ => none

/-- An edit names its entity, and the parent it gives it. -/
def Names (e : Edit α) (id : EntityId) : Prop := e.entityId = id ∨ e.parent? = some id

/-- A move, a turn, a scaling or a property change. -/
def stays : Edit α → Bool
  | .move .. | .rotate .. | .scale .. | .changeProperty .. => true
  | .add .. | .remove .. | .reparent .. => false

/-- Whatever an edit adds has no children yet. -/
def AddsLeaf (e : Edit α) : Prop := ∀ q, e.adds? = some q → q.children = []

/-- What is added is a leaf if it lists no children. -/
theorem addsLeaf_iff {e : Edit α} :
    e.AddsLeaf ↔ (e.adds?.all fun q => q.children.isEmpty) = true := by
  simp only [Option.all_eq_true, List.isEmpty_iff, AddsLeaf]

/-- An edit that neither adds nor removes adds nothing. -/
theorem adds?_of_kind {e : Edit α} (h : e.kind.isAddOrRemove = false) : e.adds? = none := by
  cases e with
  | add => cases h
  | remove | move | rotate | scale | reparent | changeProperty => rfl

theorem addsLeaf_of_kind {e : Edit α} (h : e.kind.isAddOrRemove = false) : e.AddsLeaf := by
  intro q hq
  rw [adds?_of_kind h] at hq
  cases hq

instance (e : Edit α) : Decidable e.AddsLeaf := decidable_of_iff' _ addsLeaf_iff

/-- An edit that leaves its entity where it hangs neither adds nor removes. -/
theorem kind_of_stays {e : Edit α} (h : e.stays = true) : e.kind.isAddOrRemove = false := by
  cases e <;> first | rfl | cases h

/-- An edit that stays changes nothing that links entities. -/
theorem update_of_stays {e : Edit α} (h : e.stays = true) :
    ∃ f : Entity α → Entity α, (∀ q, (f q).id = q.id) ∧ (∀ q, (f q).parent = q.parent) ∧
      (∀ q, (f q).children = q.children) ∧ ∀ t : Scene α, t.edit e = t.update e.entityId f := by
  cases e with
  | move id before after =>
    exact ⟨fun q => { q with position := after }, fun _ => rfl, fun _ => rfl,
      fun _ => rfl, fun _ => rfl⟩
  | rotate id before after =>
    exact ⟨fun q => { q with rotation := after }, fun _ => rfl, fun _ => rfl,
      fun _ => rfl, fun _ => rfl⟩
  | scale id before after =>
    exact ⟨fun q => { q with position := after.position, scale := after.scale }, fun _ => rfl,
      fun _ => rfl, fun _ => rfl, fun _ => rfl⟩
  | changeProperty id key before after =>
    exact ⟨fun q => q.setProperty key after, fun _ => rfl, fun _ => rfl, fun _ => rfl, fun _ => rfl⟩
  | add | remove | reparent => cases h

end Edit

/-!
## Edits that are accepted

There is one constructor for each way in which an edit can go through, with all that the scene has
checked for it by then.
-/

namespace Scene

variable {s t : Scene α} {e : Edit α}

/-- What an edit makes of a scene that accepts it, and what the scene checked. -/
inductive Makes (s : Scene α) : Edit α → Scene α → Prop where
  | insert (role : Role) {q : Entity α} (hnew : s.get? q.id = none)
      (hparent : ∀ p, q.parent = some p → ∃ b, s.get? p = some b) :
      Makes s (.add role q) (s.inserted q)
  | remove (role : Role) {id : EntityId} {q : Entity α} (hq : s.get? id = some q) :
      Makes s (.remove role id) (s.removed id q)
  | reparent {id : EntityId} {q : Entity α} (before : Attachment α) {after : Attachment α}
      (hadmits : s.Admits id after.parent) (hq : s.get? id = some q) :
      Makes s (.reparent id before after) (s.reparented id q after)
  | change {e : Edit α} {q : Entity α} {f : Entity α → Entity α} (hstays : e.stays = true)
      (hq : s.get? e.entityId = some q) (hid : ∀ q, (f q).id = q.id)
      (hparent : ∀ q, (f q).parent = q.parent) (hchildren : ∀ q, (f q).children = q.children) :
      Makes s e (s.modify e.entityId f)

/-- A removal is accepted when its entity is there. -/
theorem edit_remove_eq_ok {role : Role} {id : EntityId} :
    s.edit (.remove role id) = .ok t ↔ ∃ q, s.get? id = some q ∧ t = s.removed id q := by
  constructor
  · intro h
    obtain ⟨⟨q, m⟩, hm, ht⟩ := bind_eq_ok.1 h
    cases ht
    exact ⟨q, remove_eq_ok.1 hm⟩
  · rintro ⟨q, hq⟩
    have hremove : s.remove id = .ok (q, t) := remove_eq_ok.2 hq
    simp only [edit, hremove, bind, Except.bind, pure, Except.pure]

/-- An accepted edit has done what it says, and the scene has checked what it needs for it. -/
theorem makes_of_edit (h : s.edit e = .ok t) : s.Makes e t := by
  -- four kinds of edit change an entity in place, three change the links
  cases hstays : e.stays with
  | true =>
    obtain ⟨f, hid, hparent, hchildren, hedit⟩ := Edit.update_of_stays hstays
    rw [hedit] at h
    obtain ⟨⟨q, hq⟩, rfl⟩ := update_eq_ok.1 h
    exact .change hstays hq hid hparent hchildren
  | false =>
    cases e with
    | add role q =>
      obtain ⟨hnew, hparent, rfl⟩ := insert_eq_ok.1 h
      exact .insert role hnew hparent
    | remove role id =>
      obtain ⟨q, hq, rfl⟩ := edit_remove_eq_ok.1 h
      exact .remove role hq
    | reparent id before after =>
      obtain ⟨hadmits, q, hq, rfl⟩ := reparent_eq_ok.1 h
      exact .reparent before hadmits hq
    | move | rotate | scale | changeProperty => cases hstays

/-- What an edit is about is there, if the edit does not put it in. -/
theorem exists_of_edit (hadds : e.adds? = none) (h : s.edit e = .ok t) :
    ∃ q, s.get? e.entityId = some q := by
  cases makes_of_edit h with
  | insert => cases hadds
  | remove _ hq | reparent _ _ hq | change _ hq => exact ⟨_, hq⟩

/-- An edit that stays is refused where its entity is not there. -/
theorem edit_of_missing (hstays : e.stays = true) (hmissing : s.get? e.entityId = none) :
    s.edit e = .error (.entityNotFound e.entityId) := by
  obtain ⟨f, -, -, -, hedit⟩ := Edit.update_of_stays hstays
  rw [hedit, update, require, hmissing]
  rfl

/-- The active zone goes only with its own entity. -/
theorem activeZone_edit (hr : e.kind.isRemove = false) (h : s.edit e = .ok t) :
    t.activeZone = s.activeZone := by
  cases makes_of_edit h with
  | remove => cases hr
  | insert => exact activeZone_inserted s _
  | reparent => exact activeZone_reparented s _ _ _
  | change => rfl

/-- Entities stay at their own numbers. -/
theorem Keyed.edit (hs : s.Keyed) (h : s.edit e = .ok t) : t.Keyed := by
  intro x b hb
  -- every write puts an entity under its own id or leaves the id of the entity there
  cases makes_of_edit h with
  | @insert _ q =>
    rw [get?_inserted] at hb
    split at hb
    · next hx => exact (Option.some.inj hb ▸ hx).symm
    · split at hb
      · obtain ⟨b, hx, rfl⟩ := Option.map_eq_some_iff.1 hb
        rw [← hs x b hx, enlist]
        split <;> rfl
      · exact hs x b hb
  | remove =>
    rw [get?_removed] at hb
    split at hb
    · cases hb
    · obtain ⟨b, hx, rfl⟩ := Option.map_eq_some_iff.1 hb
      rw [← hs x b hx]
      dsimp only
      split <;> split <;> rfl
  | reparent _ _ hq =>
    rw [get?_reparented s _ x _ _ hq] at hb
    obtain ⟨b, hx, rfl⟩ := Option.map_eq_some_iff.1 hb
    rw [← hs x b hx]
    dsimp only
    split <;> split <;> (try split) <;> (try split) <;> rfl
  | @change _ _ _ _ _ hid =>
    rw [get?_modify] at hb
    split at hb
    · next hx =>
      obtain ⟨b, hx', rfl⟩ := Option.map_eq_some_iff.1 hb
      rw [hid, hs _ b hx', hx]
    · exact hs x b hb

end Scene

end SceneGuard
