import SceneGuard.Proofs.Rule.Standard
import SceneGuard.Proofs.Speculation.Cycles
import SceneGuard.Proofs.Speculation.Overlap

/-!
# Edits that spoil nothing

An edited scene is unspoiled when every clash in it was there before the edits (`Unspoiled`): two
different entities that overlap, neither of them below the other. An edit keeps it so if the
collision query about it finds nothing on a working set that shows the scene the edit is made in
(`Unspoiled.step`).
-/

namespace SceneGuard

/-! ## Views that see the same -/

namespace View

variable {v w : View ℝ} {a b : EntityId} {y : Vec3 ℝ} {t : Transform ℝ} {cur : Option EntityId}

theorem ParentLink.congr (hstate : w.state = v.state) : w.ParentLink = v.ParentLink := by
  unfold ParentLink
  rw [hstate]

theorem Placed.congr (hstate : w.state = v.state) (h : w.Placed cur t) : v.Placed cur t := by
  induction h with
  | root => exact .root
  | under hs _ ih => exact .under (hstate ▸ hs) ih

theorem Covers.congr (hstate : w.state = v.state) (h : w.Covers a y) : v.Covers a y := by
  obtain ⟨q, t, hq, henabled, hplaced, hy⟩ := covers_iff.1 h
  exact covers_iff.2 ⟨q, t, hstate ▸ hq, henabled, hplaced.congr hstate, hy⟩

theorem Clash.congr (hstate : w.state = v.state) (h : w.Clash a b) : v.Clash a b := by
  obtain ⟨hbelow, habove, y, ha, hb⟩ := h
  rw [ParentLink.congr hstate] at hbelow habove
  exact ⟨hbelow, habove, y, ha.congr hstate, hb.congr hstate⟩

theorem Solid.congr (hstate : w.state = v.state) (h : w.Solid a) : v.Solid a := by
  unfold Solid at *
  rwa [← hstate]

theorem Rooted.congr (hstate : w.state = v.state) (h : w.Rooted) : v.Rooted := by
  intro c q hq
  obtain ⟨t, ht⟩ := h c q (hstate ▸ hq)
  exact ⟨t, ht.congr hstate⟩

end View

/-! ## Scenes as they are seen -/

namespace Scene

variable {scene t : Scene ℝ} {a b x : EntityId}

/-- The scene by itself, with no surrogates over it. -/
def sight (s : Scene ℝ) : View ℝ := (WorkingSet.bare 0).view s

/-- The placed default boxes of two entities have an interior point in common. -/
def Overlap (s : Scene ℝ) (a b : EntityId) : Prop := s.sight.Overlap a b

/-- In sight of a scene are the surrogates of its entities. -/
theorem state_sight (s : Scene ℝ) (id : EntityId) :
    s.sight.state id = WorkingSet.orMissing (s.surrogate? id) id := rfl

/-- A scene by itself shows its entities, and their surrogates are fitted. -/
theorem fitted_sight (s : Scene ℝ) : s.sight.Fitted := by
  intro id q hq
  rw [state_sight, WorkingSet.orMissing_eq_ok] at hq
  obtain ⟨e, _, rfl⟩ := Option.map_eq_some_iff.1 hq
  exact Surrogate.fitted_ofEntity e

theorem parentLink_sight (s : Scene ℝ) : s.sight.ParentLink = s.ParentLink :=
  View.parentLink_of_scene s.state_sight

/-- A clash in sight of a scene is an overlap of entities neither of which is below the other. -/
theorem clash_sight : t.sight.Clash a b ↔ ¬t.Related a b ∧ t.Overlap a b := by
  constructor
  · intro h
    have hbelow := h.notBelow
    have habove := h.notAbove
    rw [parentLink_sight] at hbelow habove
    exact ⟨fun hrelated => hrelated.elim hbelow habove, h.overlap⟩
  · rintro ⟨hunrelated, hoverlap⟩
    refine ⟨fun h => hunrelated (.inl ?_), fun h => hunrelated (.inr ?_), hoverlap⟩ <;>
      rwa [parentLink_sight] at h

/-- Where parents are there and nobody is above themselves, everything is placed. -/
theorem rooted_sight (hscene : scene.LinkConsistent) (hacyclic : scene.Acyclic) :
    scene.sight.Rooted := by
  intro c q hq
  obtain ⟨_, hchain⟩ := View.grounded_of_scene scene.state_sight hscene hacyclic c q hq
  exact hchain.exists_placed

end Scene

/-! ## Edits -/

/-- The edit is not about a zone of the scene, and does not bring one. -/
def Edit.OffZones {α : Type} (scene : Scene α) : Edit α → Prop
  | .add _ e => e.kind ≠ .zone
  | e => ∀ x, scene.get? e.entityId = some x → x.kind ≠ .zone

/-- An edit sent elsewhere is still about no zone. -/
theorem Edit.OffZones.resited {α : Type} {scene : Scene α} {header header' : Header} {e e' : Edit α}
    (h : e.OffZones scene) (hresited : Command.Resited (.single header e) (.single header' e')) :
    e'.OffZones scene := by
  cases hresited with
  | same => exact h
  | move => exact h
  | add => exact h

variable {scene t t' : Scene ℝ} {e : Edit ℝ}

/--
Whatever clashes in the edited scene `t` clashed in `scene` already, as far as boxes tell exactly
what is there. The other two fields carry it through the edits.
-/
structure Unspoiled (scene t : Scene ℝ) : Prop where
  rooted : t.sight.Rooted
  /-- The zones are those of the scene. -/
  zones : ∀ x q, t.surrogate? x = some q → q.kind = .zone → ∃ z, scene.get? x = some z ∧
    z.kind = .zone
  kept : ∀ a b, a ≠ b → t.sight.Solid a → t.sight.Solid b → t.sight.Clash a b →
    scene.sight.Clash a b

namespace Unspoiled

/-- Before the first edit nothing is spoiled. -/
theorem start (hscene : scene.LinkConsistent) (hacyclic : scene.Acyclic) :
    Unspoiled scene scene where
  rooted := Scene.rooted_sight hscene hacyclic
  zones x q hq hkind := by
    obtain ⟨z, hz, rfl⟩ := Option.map_eq_some_iff.1 hq
    exact ⟨z, hz, hkind⟩
  kept _ _ _ _ _ h := h

/-- An edit that is about no zone starts from no zone. -/
theorem base (h : Unspoiled scene t) (hoff : e.OffZones scene) {q : Surrogate ℝ}
    (hq : t.base? e = some q) : q.kind ≠ .zone := by
  intro hkind
  cases e with
  | add role x =>
    cases hq
    exact hoff hkind
  | _ =>
    obtain ⟨z, hz, hzone⟩ := h.zones _ q hq hkind
    exact hoff z hz hzone

end Unspoiled

theorem Scene.base_edit (hr : e.kind.isRemove = false) {q s : Surrogate ℝ} (hq : t.base? e = some q)
    (hs : q.edit e = some s) : s.kind = q.kind ∧ s.enabled = true := by
  cases e with
  | add role x =>
    cases hq
    cases hs
    exact ⟨rfl, rfl⟩
  | remove => cases hr
  | changeProperty => cases hs
  | _ =>
    obtain ⟨x, _, rfl⟩ := Option.map_eq_some_iff.1 hq
    cases hs
    exact ⟨rfl, rfl⟩

namespace Unspoiled

/-- A scene that shows the same is as unspoiled. -/
theorem same (h : Unspoiled scene t) (hsame : ∀ x, t'.surrogate? x = t.surrogate? x) :
    Unspoiled scene t' := by
  have hstate : t'.sight.state = t.sight.state := by
    funext c
    rw [Scene.state_sight, Scene.state_sight, hsame]
  refine ⟨h.rooted.congr hstate.symm, fun x q hq => h.zones x q (hsame x ▸ hq), ?_⟩
  exact fun a b hab ha hb hclash =>
    h.kept a b hab (ha.congr hstate) (hb.congr hstate) (hclash.congr hstate)

/-- An edit that places its entity spoils nothing if the collision query about it finds nothing. -/
theorem place {w : WorkingSet ℝ} (h : Unspoiled scene t) (hshows : w.Shows scene t)
    {s : Surrogate ℝ} (hkind : s.kind ≠ .zone)
    (hnext : ∀ x, t'.surrogate? x = if x = s.id then some s else t.surrogate? x)
    (hzone : scene.activeZone = none) {options : CollisionOptions ℝ}
    (hepsilon : 0 ≤ w.epsilon + options.margin)
    (hquery : ((w.view scene).trying s).neighbours s.id options true = .ok none) :
    Unspoiled scene t' := by
  -- what the query sees is the scene after the edit
  have hafter : ((w.view scene).trying s).state = t'.sight.state := by
    funext c
    have hsettled : (w.view scene).settled c = WorkingSet.orMissing (t.surrogate? c) c :=
      hshows.settled c
    rw [Scene.state_sight, hnext]
    show (if s.id = c then .ok s else (w.view scene).settled c) = _
    by_cases hc : c = s.id
    · rw [if_pos hc, if_pos hc.symm]
      rfl
    · rw [if_neg hc, if_neg (Ne.symm hc), hsettled]
  -- and everywhere but at the entity itself the scene before it
  have hother : ∀ c, c ≠ s.id → ((w.view scene).trying s).state c = t.sight.state c := by
    intro c hc
    rw [hafter, Scene.state_sight, Scene.state_sight, hnext, if_neg hc]
  refine ⟨(h.rooted.of_neighbours hother hquery).congr hafter, fun x q hq hqkind => ?_, ?_⟩
  · rw [hnext] at hq
    split at hq
    · cases hq
      exact absurd hqkind hkind
    · exact h.zones x q hq hqkind
  · intro a b hab ha hb hclash
    have hsolid : ∀ {c}, c ≠ s.id → t'.sight.Solid c → t.sight.Solid c := by
      rintro c hc ⟨q, hq, hrest⟩
      rw [← hafter, hother c hc] at hq
      exact ⟨q, hq, hrest⟩
    have hfit : ((w.view scene).trying s).Fitted := fun c q hq =>
      t'.fitted_sight c q (hafter ▸ hq)
    obtain ⟨hax, hbx, hbefore⟩ := View.clash_of_neighbours hfit hother rfl hzone hepsilon hquery
      h.rooted hab (ha.congr hafter.symm) (hb.congr hafter.symm) (hclash.congr hafter.symm)
    exact h.kept a b hab (hsolid hax ha) (hsolid hbx hb) hbefore

/--
**A checked edit spoils nothing.** The check is made on a working set that shows the scene the edit
is made in, and only edits that place their entity are checked.
-/
theorem step {w : WorkingSet ℝ} (h : Unspoiled scene t) (hshows : w.Shows scene t)
    (hkeyed : t.Keyed) (hr : e.kind.isRemove = false) (hoff : e.OffZones scene)
    (hedit : t.edit e = .ok t') (hzone : scene.activeZone = none) (options : CollisionOptions ℝ)
    (huse : options.useSurrogates = true) (hepsilon : 0 ≤ w.epsilon + options.margin)
    (header : Header)
    (hcollide : e.kind.places = true → w.collide scene (.single header e) options true = .ok none) :
    Unspoiled scene t' := by
  obtain ⟨q, hq, hnext⟩ := Scene.surrogate?_edit hr hedit
  have hqid := hkeyed.base_id hq
  cases hs : q.edit e with
  | none =>
    -- a property change, which no query sees
    refine h.same fun x => ?_
    have hbase : t.surrogate? e.entityId = some q := by
      cases e with
      | changeProperty => exact hq
      | _ => simp [Surrogate.edit] at hs
    rw [hnext, hs]
    split
    · next hx => exact (hx ▸ hbase).symm
    · rfl
  | some s =>
    have hplaces : e.kind.places = true := by
      cases e with
      | remove => cases hr
      | changeProperty => cases hs
      | _ => rfl
    obtain ⟨hkind, henabled⟩ := Scene.base_edit hr hq hs
    have hkind : s.kind ≠ .zone := hkind ▸ h.base hoff hq
    have hsid := Surrogate.edit_id hqid hs
    have hmade : w.surrogateFor scene (.single header e) = .ok (some s) := by
      rw [WorkingSet.surrogateFor_single, hshows.base?, hq]
      simp [WorkingSet.orMissing, Except.map, Surrogate.apply, hqid, hs]
    -- the entity is there and no zone, so the query went on to its neighbours
    have hquery := hcollide hplaces
    have hremove : (Command.single header e).kind.isRemove = false := hr
    rw [WorkingSet.collide_of_surrogateFor huse hremove hmade hkind henabled] at hquery
    refine h.place hshows hkind (fun x => ?_) hzone hepsilon hquery
    rw [hnext, hs, hsid]
    rfl

end Unspoiled

end SceneGuard
