import SceneGuard.Proofs.Scene.Commands
import SceneGuard.Proofs.Scene.Following
import SceneGuard.Proofs.Speculation.Application

/-!
# Edits of one batch

Rules look at one command after the other, and not at everything a scene insists on. `Edit.Fits`
says what they leave to the author of a batch: how an edit has to go with the scene and with the
edits before it. For batches that fit, `WorkingSet.Sound` says what the surrogates stand for, and
`no_way_back` turns an answered collision query into what the scene asks of a new parent.
-/

namespace SceneGuard

variable {α : Type}

variable {scene t : Scene α} {before done : List (Edit α)} {e : Edit α} {R : List EntityId}

/-- A number is taken: in the scene, or by an edit before. -/
def Known (scene : Scene α) (before : List (Edit α)) (id : EntityId) : Prop :=
  (∃ e, scene.get? id = some e) ∨ ∃ b ∈ before, ∃ e, b.adds? = some e ∧ e.id = id

/-- A zone of the scene, or one that an edit before put in. -/
def KnownZone (scene : Scene α) (before : List (Edit α)) (id : EntityId) : Prop :=
  (∃ e, scene.get? id = some e ∧ e.kind = .zone) ∨
    ∃ b ∈ before, ∃ e, b.adds? = some e ∧ e.id = id ∧ e.kind = .zone

/-- A parent that an entity has in the scene, or that an edit before gives it. -/
def Linked (scene : Scene α) (before : List (Edit α)) (c p : EntityId) : Prop :=
  scene.ParentLink c p ∨ ∃ b ∈ before, b.entityId = c ∧ b.parent? = some p

/-- An edit goes with the scene and with the edits before it. -/
structure Edit.Fits (scene : Scene α) (before : List (Edit α)) (e : Edit α) : Prop where
  /-- An entity is put in under a number that is not taken. -/
  fresh : ∀ x, e.adds? = some x → ¬Known scene before x.id
  /-- A zone is put in at the top, or under a number that is taken. -/
  zoneAdded : ∀ x, e.adds? = some x → x.kind = .zone → ∀ p, x.parent = some p → Known scene before p
  /-- What was removed is not named again. -/
  live : ∀ b ∈ before, ∀ id, b.removes? = some id → ¬e.Names id
  /-- What goes with a removed entity is not removed by itself, and the other way round. -/
  apart : ∀ id, e.removes? = some id → ∀ b ∈ before, ∀ id', b.removes? = some id' →
    ¬scene.Below id id' ∧ ¬scene.Below id' id
  /-- An entity that was put in with a list of children stays. -/
  childless : ∀ id, e.removes? = some id → ∀ b ∈ before, ∀ x, b.adds? = some x → x.id = id →
    x.children = []
  /-- Zones, and what goes with a removed entity,
  are put under a number that is taken and not below them. -/
  loose : ∀ id before' after, e = .reparent id before' after →
    (KnownZone scene before id ∨ ∃ b ∈ before, ∃ id', b.removes? = some id' ∧ scene.Below id id') →
    ∀ p, after.parent = some p →
      Known scene before p ∧ ¬Relation.ReflTransGen (Linked scene before) p id

/-- Each edit that a command makes goes with the scene and with the edits before it. -/
def Command.Fits (scene : Scene α) (c : Command α) : Prop :=
  ∀ before e after, c.edits = before ++ e :: after → e.Fits scene before

/-- Splits of a list are its head with nothing before it, and splits of what follows. -/
theorem forall_splits_cons {P : List (Edit α) → Edit α → Prop} {e : Edit α} {es : List (Edit α)}
    (he : P [] e) (hes : ∀ before e' after, es = before ++ e' :: after → P (e :: before) e') :
    ∀ before e' after, e :: es = before ++ e' :: after → P before e' := by
  intro before e' after h
  rcases List.cons_eq_append_iff.1 h with ⟨rfl, hfirst⟩ | ⟨before', rfl, hrest⟩
  · cases hfirst
    exact he
  · exact hes before' e' after hrest

/-- One more edit makes known what it adds. -/
theorem known_append {x : EntityId} :
    Known scene (done ++ [e]) x ↔ Known scene done x ∨ ∃ y, e.adds? = some y ∧ y.id = x := by
  unfold Known
  simp only [List.mem_append, List.mem_singleton, or_and_right, exists_or, exists_eq_left, or_assoc]

theorem knownZone_append {x : EntityId} :
    KnownZone scene (done ++ [e]) x ↔
      KnownZone scene done x ∨ ∃ y, e.adds? = some y ∧ y.id = x ∧ y.kind = .zone := by
  unfold KnownZone
  simp only [List.mem_append, List.mem_singleton, or_and_right, exists_or, exists_eq_left, or_assoc]

/-- What was linked by earlier edits is linked still. -/
theorem Linked.append {c p : EntityId} (h : Linked scene done c p) :
    Linked scene (done ++ [e]) c p :=
  h.imp_right fun ⟨b, hb, hlink⟩ => ⟨b, List.mem_append_left _ hb, hlink⟩

/-!
## What the surrogates stand for

`Sound` leads from a surrogate back to the scene and the edits that were made: what is shown is
known, and hangs where the scene or one of the edits has put it. Every kind of edit keeps it in a
way of its own.
-/

namespace WorkingSet

variable [Scalar α] {w : WorkingSet α}

/-- The parents with which entities are shown. -/
def skeleton (w : WorkingSet α) (scene : Scene α) : Skeleton :=
  fun x => (w.shown scene x).map (·.parent)

/-- To put a surrogate in changes the skeleton at its number only. -/
theorem skeleton_add (w : WorkingSet α) (scene : Scene α) (s : Surrogate α) :
    (w.add s).skeleton scene = Function.update (w.skeleton scene) s.id (some s.parent) := by
  funext x
  unfold skeleton
  rw [shown_add]
  by_cases hx : x = s.id
  · rw [if_pos hx, hx, Function.update_self]
    rfl
  · rw [if_neg hx, Function.update_of_ne hx]

/-- What surrogates say after the edits `done`,
of which those at `R` and the cascade took entities out. -/
structure Sound (scene : Scene α) (done : List (Edit α)) (R : List EntityId) (w : WorkingSet α) :
    Prop where
  known : ∀ x, (w.shown scene x).isSome = true ↔ Known scene done x
  keyed : ∀ {x s}, w.shown scene x = some s → s.id = x
  zone : ∀ {x s}, w.shown scene x = some s → s.kind = .zone → KnownZone scene done x
  disabled : ∀ {x s}, w.shown scene x = some s → s.enabled = false → x ∈ R ∨
    ∃ y ∈ R, scene.Below x y
  linked : ∀ {x s p}, w.shown scene x = some s → s.parent = some p → Linked scene done x p

/-- Before the first edit there is nothing to go wrong. -/
theorem sound_start (h : scene.Keyed) (hw : ∀ x, w.shown scene x = scene.surrogate? x) :
    Sound scene [] [] w where
  -- nothing is tracked yet, so what is shown is what the scene has
  known x := by
    rw [hw]
    simp [Scene.surrogate?, Known, Option.isSome_iff_exists]
  keyed hs := h.surrogate_id (by rwa [hw] at hs)
  zone {x s} hs hkind := by
    rw [hw] at hs
    obtain ⟨e, he, rfl⟩ := Option.map_eq_some_iff.1 hs
    exact .inl ⟨e, he, hkind⟩
  disabled {x s} hs hen := by
    rw [hw] at hs
    obtain ⟨e, he, rfl⟩ := Option.map_eq_some_iff.1 hs
    cases hen
  linked {x s p} hs hp := by
    rw [hw] at hs
    obtain ⟨e, he, rfl⟩ := Option.map_eq_some_iff.1 hs
    exact .inl ⟨e, he, hp⟩

/-- An added entity comes to be known where it stands. -/
theorem Sound.add (h : Sound scene done R w) {x x' : Entity α} (he : e.adds? = some x)
    (hid : x'.id = x.id) (hkind : x'.kind = x.kind) (hparent : x'.parent = x.parent) :
    Sound scene (done ++ [e]) R (w.add (.ofEntity x')) := by
  have hshown := shown_add w scene (.ofEntity x')
  have hnew : (Surrogate.ofEntity x').id = x.id := hid
  rw [hnew] at hshown
  -- field by field, what is shown at a number is the new surrogate or what was shown before
  refine ⟨fun y => ?known, fun {y s} hs => ?keyed, fun {y s} hs hz => ?zone,
    fun {y s} hs hen => ?disabled, fun {y s p} hs hp => ?linked⟩
  case known =>
    rw [hshown, known_append, he]
    by_cases hy : y = x.id
    · simp [hy]
    · simp [hy, Ne.symm hy, h.known]
  case keyed =>
    rw [hshown] at hs
    split at hs
    · next hy => cases hs; exact hnew.trans hy.symm
    · exact h.keyed hs
  case zone =>
    rw [hshown] at hs
    rw [knownZone_append, he]
    split at hs
    · next hy => cases hs; exact .inr ⟨x, rfl, hy.symm, hkind ▸ hz⟩
    · exact .inl (h.zone hs hz)
  case disabled =>
    rw [hshown] at hs
    split at hs
    · cases hs; cases hen
    · exact h.disabled hs hen
  case linked =>
    rw [hshown] at hs
    split at hs
    · next hy =>
      cases hs
      cases e with
      | add role z => cases he; exact .inr ⟨.add role x, by simp, hy.symm, hparent.symm.trans hp⟩
      | _ => cases he
    · exact (h.linked hs hp).append

/-- A change keeps number, kind and whether it is there, and sets the parent if its edit does. -/
theorem Sound.change (h : Sound scene done R w) (he : e.adds? = none) {q s : Surrogate α}
    {x : EntityId} (hq : w.shown scene x = some q) (hid : s.id = q.id) (hkind : s.kind = q.kind)
    (henabled : s.enabled = q.enabled)
    (hparent : s.parent = q.parent ∨ e.entityId = x ∧ e.parent? = s.parent) :
    Sound scene (done ++ [e]) R (w.add s) := by
  have hx := h.keyed hq
  have hshown := shown_add w scene s
  rw [hid, hx] at hshown
  -- what is shown now was shown before, with the same number, kind and presence
  have hback : ∀ {y s'}, (w.add s).shown scene y = some s' → ∃ q', w.shown scene y = some q' ∧
      s'.id = q'.id ∧ s'.kind = q'.kind ∧ s'.enabled = q'.enabled := by
    intro y s' hs'
    rw [hshown] at hs'
    split at hs'
    · next hy => cases hs'; exact ⟨q, hy ▸ hq, hid, hkind, henabled⟩
    · exact ⟨s', hs', rfl, rfl, rfl⟩
  refine ⟨fun y => ?known, fun hs => ?keyed, fun hs hz => ?zone, fun hs hen => ?disabled,
    fun {y s' p} hs hp => ?linked⟩
  case known =>
    rw [known_append, he, ← h.known, hshown]
    split
    · next hy => simp [hy, hq]
    · simp
  case keyed =>
    obtain ⟨q', hq', hid', _⟩ := hback hs
    exact hid'.trans (h.keyed hq')
  case zone =>
    obtain ⟨q', hq', _, hk, _⟩ := hback hs
    exact knownZone_append.2 (.inl (h.zone hq' (hk ▸ hz)))
  case disabled =>
    obtain ⟨q', hq', _, _, hen'⟩ := hback hs
    exact h.disabled hq' (hen' ▸ hen)
  case linked =>
    rw [hshown] at hs
    split at hs
    · next hy =>
      cases hs
      rcases hparent with hsame | ⟨hid', hgiven⟩
      · exact hy ▸ (h.linked hq (hsame ▸ hp)).append
      · exact .inr ⟨e, by simp, hid'.trans hy.symm, hgiven.trans hp⟩
    · exact (h.linked hs hp).append

/-- An edit that leaves no surrogate has told nothing new. -/
theorem Sound.same (h : Sound scene done R w) (he : e.adds? = none) :
    Sound scene (done ++ [e]) R w where
  known x := by rw [known_append, he, h.known]; simp
  keyed := h.keyed
  zone hs hz := knownZone_append.2 (.inl (h.zone hs hz))
  disabled := h.disabled
  linked hs hp := (h.linked hs hp).append

/-- After a removal: surrogates at the entity and below it in the scene may be disabled now. -/
def Disables (scene : Scene α) (id : EntityId) (w w' : WorkingSet α) : Prop :=
  ∀ x, w'.shown scene x = w.shown scene x ∨ ∃ q, w.shown scene x = some q ∧
    w'.shown scene x = some q.disabled ∧ (x = id ∨ scene.Below x id)

/-- To disable what is below an entity does not bear on how things hang. -/
theorem Disables.skeleton {w' : WorkingSet α} {id : EntityId} (h : Disables scene id w w') :
    w'.skeleton scene = w.skeleton scene := by
  funext x
  unfold WorkingSet.skeleton
  rcases h x with hx | ⟨q, hq, hx, _⟩
  · rw [hx]
  · rw [hx, hq]
    rfl

/-- A removal adds its entity, and what it disables is below that one. -/
theorem Sound.remove (h : Sound scene done R w) {w' : WorkingSet α} {id : EntityId}
    (hw : Disables scene id w w') : Sound scene done (R ++ [id]) w' := by
  -- what is shown now was shown before, and only presence may have gone
  have hback : ∀ {y s'}, w'.shown scene y = some s' → ∃ q', w.shown scene y = some q' ∧
      s'.id = q'.id ∧ s'.kind = q'.kind ∧
      s'.parent = q'.parent ∧
        (s'.enabled = false → q'.enabled = false ∨ y = id ∨ scene.Below y id) := by
    intro y s' hs'
    rcases hw y with hy | ⟨q, hq, hy, hbelow⟩
    · exact ⟨s', hy ▸ hs', rfl, rfl, rfl, .inl⟩
    · rw [hs'] at hy
      cases hy
      exact ⟨q, hq, rfl, rfl, rfl, fun _ => .inr hbelow⟩
  refine ⟨fun y => ?known, fun hs => ?keyed, fun hs hz => ?zone, fun hs hen => ?disabled,
    fun hs hp => ?linked⟩
  case known =>
    rw [← h.known]
    rcases hw y with hy | ⟨q, hq, hy, _⟩
    · rw [hy]
    · rw [hy, hq]
      rfl
  case keyed =>
    obtain ⟨q', hq', hid', _⟩ := hback hs
    exact hid'.trans (h.keyed hq')
  case zone =>
    obtain ⟨q', hq', _, hk, _⟩ := hback hs
    exact h.zone hq' (hk ▸ hz)
  case disabled =>
    obtain ⟨q', hq', _, _, _, hen'⟩ := hback hs
    rcases hen' hen with hen' | rfl | hbelow
    · rcases h.disabled hq' hen' with hR | ⟨y, hy, hbelow⟩
      · exact .inl (List.mem_append_left _ hR)
      · exact .inr ⟨y, List.mem_append_left _ hy, hbelow⟩
    · exact .inl (by simp)
    · exact .inr ⟨id, by simp, hbelow⟩
  case linked =>
    obtain ⟨q', hq', _, _, hsame, _⟩ := hback hs
    exact h.linked hq' (hsame ▸ hp)

/-- A link among surrogates is one of the scene, or was made by one of the edits. -/
theorem Sound.linked_of_link (h : Sound scene done R w) {c p : EntityId}
    (hl : (w.skeleton scene).Link c p) : Linked scene done c p := by
  obtain ⟨q, hq, hp⟩ := Option.map_eq_some_iff.1 hl
  exact h.linked hq hp

/-!
## New parents

A collision query walks up from its entity, so one that has an answer came to the end of that walk.
What the scene asks of a new parent follows from it.
-/

/--
When the walk up from a surrogate under test comes to an end, its parent is known, and no way of the
skeleton leads from there back to the entity.
-/
theorem no_way_back {s : Surrogate α} {chain : List EntityId}
    (h : ((w.view scene).trying s).ancestors s.id = .ok chain) {p : EntityId}
    (hp : s.parent = some p) :
    (w.skeleton scene p).isSome = true ∧ ¬Relation.ReflTransGen (w.skeleton scene).Link p s.id := by
  have hself : ((w.view scene).trying s).state s.id = .ok s := by simp [View.trying, View.state]
  have hother : ∀ x, x ≠ s.id → ((w.view scene).trying s).state x =
      orMissing (w.shown scene x) x := by
    intro x hx
    show (if s.id = x then .ok s else (w.view scene).settled x) = _
    rw [if_neg (Ne.symm hx), settled_view]
  -- the walk passed exactly what is above the parent, and not the entity itself
  obtain ⟨s', hs', hlineage, hnot⟩ := View.ancestors_eq_ok.1 h
  rw [hself] at hs'
  cases hs'
  rw [hp] at hlineage
  have hmem : ∀ {x}, x ∈ chain ↔ Relation.ReflTransGen ((w.view scene).trying s).ParentLink p x :=
    hlineage.mem_iff
  have hps : p ≠ s.id := fun he => hnot (he ▸ hmem.2 .refl)
  refine ⟨?_, fun hback => hnot (hmem.2 ?_)⟩
  · obtain ⟨q, hq⟩ := hlineage.exists_state (hmem.2 .refl)
    rw [hother p hps, orMissing_eq_ok] at hq
    rw [WorkingSet.skeleton, hq]
    rfl
  · -- up to the first time it comes to the entity, a way of the skeleton is one the walk sees
    clear hlineage hmem hps hp hnot
    induction hback using Relation.ReflTransGen.head_induction_on with
    | refl => exact .refl
    | @head a b hab _ ih =>
      by_cases ha : a = s.id
      · exact ha ▸ .refl
      · obtain ⟨q, hq, hqp⟩ := Option.map_eq_some_iff.1 hab
        exact .head ⟨q, by rw [hother a ha, hq]; rfl, hqp⟩ ih

/-- A collision query about anything that can collide walks up from it. -/
theorem ancestors_of_collide {c : Command α} {options : CollisionOptions α} {withDescendants : Bool}
    {found : Option (List EntityId)} (huse : options.useSurrogates = true)
    (hc : c.kind.isRemove = false) {s : Surrogate α} (hmade : w.surrogateFor scene c = .ok (some s))
    (hkind : s.kind ≠ .zone) (henabled : s.enabled = true)
    (h : w.collide scene c options withDescendants = .ok found) :
    ∃ chain, ((w.view scene).trying s).ancestors s.id = .ok chain := by
  rw [collide_of_surrogateFor huse hc hmade hkind henabled] at h
  obtain ⟨_, _, h⟩ := bind_eq_ok.1 h
  obtain ⟨chain, hchain, _⟩ := bind_eq_ok.1 h
  exact ⟨chain, hchain⟩

end WorkingSet

end SceneGuard
