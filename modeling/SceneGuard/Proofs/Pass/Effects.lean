import Mathlib.Data.List.Induction
import Mathlib.Data.List.Pairwise
import SceneGuard.Proofs.Rule.Cascade
import SceneGuard.Proofs.Speculation.Batch

/-!
# One edit on the scene and on the surrogates

An edit that its rules approved goes into the surrogates, and into the scene when the approved
commands are run. `InBoth` relates the two sides. Main statements:

* `accepted_of_fits` — an edit that fits and whose collision query has an answer is accepted by the
  scene, and both sides stay related;
* `edit_of_remove`, `disables_of_removal` — the same for a removal and what the cascade does with
  it;
* `Apart.remove`, `apart_of_fits` — removals of a batch that fits, and those the cascade issues for
  them, never name an entity twice.
-/

namespace SceneGuard

variable {α : Type}

/-! ## What a scene that follows accepts -/

namespace Scene

variable {t : Scene α} {σ : Skeleton} {R T : EntityId → Prop} {id : EntityId}

/-- What the skeleton does not know can be added under what it knows. -/
theorem Follows.edit_add (h : t.Follows σ R T) {role : Role} {x : Entity α} (hnew : σ x.id = none)
    (hparent : ∀ p, x.parent = some p → (σ p).isSome = true ∧ ¬R p) :
    t.edit (.add role x) = .ok (t.inserted x) := by
  refine insert_eq_ok.2 ⟨?_, fun p hp => h.get?_isSome (hparent p hp).1 (hparent p hp).2, rfl⟩
  cases hg : t.get? x.id with
  | none => rfl
  | some q =>
    have := ((h.present x.id).1 (by rw [skeleton_of_get? hg]; rfl)).1
    rw [hnew] at this
    cases this

/-- What it knows can be hung under something that does not hang below it. -/
theorem Follows.edit_reparent (h : t.Follows σ R T) (before after : Attachment α)
    (hid : (σ id).isSome = true) (hR : ¬R id)
    (hparent : ∀ p, after.parent = some p → (σ p).isSome = true ∧ ¬R p ∧
      ¬Relation.ReflTransGen σ.Link p id) :
    ∃ e, t.get? id = some e ∧ t.edit (.reparent id before after) =
      .ok (t.reparented id e after) := by
  obtain ⟨e, he⟩ := h.get?_isSome hid hR
  refine ⟨e, he, reparent_of_admits (fun p hp => ?_) he⟩
  obtain ⟨hknown, hRp, hback⟩ := hparent p hp
  exact ⟨h.get?_isSome hknown hRp, h.isAncestor_eq_false hback⟩

theorem Follows.edit_remove (h : t.Follows σ R T) (role : Role) (hid : (σ id).isSome = true)
    (hR : ¬R id) : ∃ e, t.get? id = some e ∧ t.edit (.remove role id) = .ok (t.removed id e) := by
  obtain ⟨e, he⟩ := h.get?_isSome hid hR
  exact ⟨e, he, edit_remove_eq_ok.2 ⟨e, he, rfl⟩⟩

end Scene

/-! ## Edits that keep to their place in the hierarchy -/

/-- An edit of an entity that stays where it hangs changes no more than how it is placed. -/
theorem Surrogate.edit_of_stays [Scalar α] {e : Edit α} (h : e.stays = true) {q s : Surrogate α}
    (hs : q.edit e = some s) :
    s.id = q.id ∧ s.kind = q.kind ∧ s.enabled = q.enabled ∧ s.parent = q.parent := by
  cases e with
  | move | rotate | scale => cases hs; exact ⟨rfl, rfl, rfl, rfl⟩
  | changeProperty => cases hs
  | add | remove | reparent => cases h

/-!
## One edit, on the scene and on the surrogates

There is one lemma for each kind of edit. What a batch promises of the edit and what the query about
it has answered make the scene accept it, and both sides go on together.
-/

/-- Only what was put in without children may be taken out again. -/
def Childless (done : List (Edit α)) (id : EntityId) : Prop :=
  ∀ b ∈ done, ∀ x, b.adds? = some x → x.id = id → x.children = []

/-- What no edit has hung below an entity, the earlier ones have not. -/
theorem Childless.of_append {done : List (Edit α)} {e : Edit α} {id : EntityId}
    (h : Childless (done ++ [e]) id) : Childless done id :=
  fun b hb => h b (List.mem_append_left _ hb)

section Effects

variable [Scalar α] {w : WorkingSet α} {scene t : Scene α} {done : List (Edit α)}
  {R : List EntityId} {made : Option (Surrogate α)} {header : Header}

/-- What an edit makes of a surrogate under its own number. -/
theorem WorkingSet.made_eq {e : Edit α} (hkeyed : ∀ q, w.base? scene e = some q → q.id = e.entityId)
    (hmade : w.surrogateFor scene (.single header e) = .ok made) :
    ∃ q, w.base? scene e = some q ∧ q.id = e.entityId ∧ made = q.edit e := by
  rw [surrogateFor_single] at hmade
  cases hq : w.base? scene e with
  | none => rw [hq] at hmade; cases hmade
  | some q =>
    have hid := hkeyed q hq
    rw [hq] at hmade
    simp only [orMissing, Except.map, Surrogate.apply, hid, if_true, Except.ok.injEq] at hmade
    exact ⟨q, rfl, hid, hmade.symm⟩

/-- The surrogate for an edit is the one shown, with the edit made to it. -/
theorem WorkingSet.Sound.made_eq (h : WorkingSet.Sound scene done R w) {e : Edit α}
    (hmade : w.surrogateFor scene (.single header e) = .ok made) :
    ∃ q, w.base? scene e = some q ∧ q.id = e.entityId ∧ made = q.edit e := by
  refine WorkingSet.made_eq (fun q hq => ?_) hmade
  cases e with
  | add role x => obtain rfl : Surrogate.ofEntity x = q := Option.some.inj hq; rfl
  | _ => exact h.keyed hq

/-- The scene and the surrogates after an edit that went into both. -/
def InBoth (w : WorkingSet α) (scene t : Scene α) (done : List (Edit α)) (R : List EntityId) :
    Prop :=
  WorkingSet.Sound scene done R w ∧ t.Follows (w.skeleton scene) (· ∈ R) (Childless done)

/-- Where an entity is depends on look-ups only. -/
theorem InBoth.congr {w' : WorkingSet α} (h : InBoth w scene t done R)
    (hw : ∀ id, w.get? id = w'.get? id) : InBoth w' scene t done R := by
  have hshown := WorkingSet.shown_congr hw scene
  obtain ⟨⟨hknown, hkeyed, hzone, hdisabled, hlinked⟩, hfollows⟩ := h
  unfold WorkingSet.skeleton at hfollows
  rw [hshown] at hknown hkeyed hzone hdisabled hlinked hfollows
  exact ⟨⟨hknown, hkeyed, hzone, hdisabled, hlinked⟩, hfollows⟩

/-- An edit that adds nothing makes nothing known. -/
theorem InBoth.same (h : InBoth w scene t done R) {e : Edit α} (he : e.adds? = none) :
    InBoth w scene t (done ++ [e]) R :=
  ⟨h.1.same he, h.2.weaken fun _ hx => hx.of_append⟩

/-- An edit that leaves its entity where it hangs is accepted, and seen in both. -/
theorem edit_of_stays (h : InBoth w scene t done R) {e e' : Edit α} (hstays : e'.stays = true)
    (hadds : e.adds? = none) (hR : e'.entityId ∉ R)
    (hmade : w.surrogateFor scene (.single header e') = .ok made) :
    ∃ t', t.edit e' = .ok t' ∧ InBoth (w.addIfAny made) scene t' (done ++ [e]) R := by
  obtain ⟨hsound, hfollows⟩ := h
  obtain ⟨q, hq, hid, rfl⟩ := hsound.made_eq hmade
  have hq : w.shown scene e'.entityId = some q := by
    cases e' with
    | add => cases hstays
    | _ => exact hq
  obtain ⟨f, -, hparent, hchildren, hedit⟩ := Edit.update_of_stays hstays
  have hknown : (w.skeleton scene e'.entityId).isSome = true := by
    rw [WorkingSet.skeleton, hq]
    rfl
  have hthere := hfollows.get?_isSome hknown hR
  -- neither the scene nor the surrogates change a link
  refine ⟨t.modify e'.entityId f, (hedit t).trans (Scene.update_eq_ok.2 ⟨hthere, rfl⟩), ?_⟩
  have hfollows' : (t.modify e'.entityId f).Follows (w.skeleton scene) (· ∈ R)
      (Childless (done ++ [e])) :=
    (hfollows.update hparent hchildren e'.entityId).weaken fun x hx => Childless.of_append hx
  cases hs : q.edit e' with
  | none => exact ⟨hsound.same hadds, hfollows'⟩
  | some s =>
    obtain ⟨hsid, hkind, henabled, hsparent⟩ := Surrogate.edit_of_stays hstays hs
    refine ⟨hsound.change hadds hq hsid hkind henabled (.inl hsparent), ?_⟩
    have hskeleton : (w.add s).skeleton scene = w.skeleton scene := by
      rw [WorkingSet.skeleton_add, hsid, hid, hsparent]
      exact Function.update_eq_self_iff.2 (by rw [WorkingSet.skeleton, hq]; rfl)
    show Scene.Follows _ ((w.add s).skeleton scene) _ _
    rw [hskeleton]
    exact hfollows'

/-- A reparenting whose query found the new parent there is accepted, and seen in both. -/
theorem edit_of_reparent (h : InBoth w scene t done R) {id : EntityId} {before after : Attachment α}
    (hR : id ∉ R)
    (hmade : w.surrogateFor scene (.single header (.reparent id before after)) = .ok made)
    (hparent : ∀ s, made = some s → ∀ p, after.parent = some p → p ∉ R ∧
      (w.skeleton scene p).isSome = true ∧ ¬Relation.ReflTransGen (w.skeleton scene).Link p s.id) :
    ∃ t', t.edit (.reparent id before after) = .ok t' ∧
      InBoth (w.addIfAny made) scene t' (done ++ [.reparent id before after]) R := by
  obtain ⟨hsound, hfollows⟩ := h
  obtain ⟨q, hq, hid, rfl⟩ := hsound.made_eq hmade
  have hknown : (w.skeleton scene id).isSome = true := by
    rw [WorkingSet.skeleton, show w.shown scene id = some q from hq]
    rfl
  -- the new parent is known, was not removed, and does not lie below the entity
  have hadmits : ∀ p, after.parent = some p →
      (w.skeleton scene p).isSome = true ∧ p ∉ R ∧
        ¬Relation.ReflTransGen (w.skeleton scene).Link p id := by
    intro p hp
    obtain ⟨hRp, hknown, hback⟩ := hparent _ rfl p hp
    exact ⟨hknown, hRp, fun hway => hback (by rwa [show q.id = id from hid])⟩
  obtain ⟨e, he, hedit⟩ := hfollows.edit_reparent before after hknown hR hadmits
  refine ⟨_, hedit, hsound.change rfl hq rfl rfl rfl (.inr ⟨rfl, rfl⟩), ?_⟩
  have hskeleton :
      (w.add { q with parent := after.parent, position := after.position }).skeleton scene =
      Function.update (w.skeleton scene) id (some after.parent) := by
    rw [WorkingSet.skeleton_add]
    show Function.update _ q.id _ = _
    rw [show q.id = id from hid]
  show Scene.Follows _ ((w.add _).skeleton scene) _ _
  rw [hskeleton]
  exact (hfollows.reparent he after).weaken fun x hx => Childless.of_append hx

/-- An addition of something new is accepted, and seen in both. -/
theorem edit_of_add (h : InBoth w scene t done R) {e : Edit α} {role : Role} {x x' : Entity α}
    (hadds : e.adds? = some x) (hid : x'.id = x.id) (hkind : x'.kind = x.kind)
    (hchildren : x'.children = x.children) (hsame : x'.parent = x.parent)
    (hfresh : ¬Known scene done x.id)
    (hmade : w.surrogateFor scene (.single header (.add role x')) = .ok made)
    (hparent : ∀ p, x'.parent = some p → p ∉ R ∧ (w.skeleton scene p).isSome = true) :
    ∃ t', t.edit (.add role x') = .ok t' ∧ InBoth (w.addIfAny made) scene t' (done ++ [e]) R := by
  obtain ⟨hsound, hfollows⟩ := h
  obtain ⟨q, hq, _, rfl⟩ := hsound.made_eq hmade
  obtain rfl : Surrogate.ofEntity x' = q := Option.some.inj hq
  have hnew : w.skeleton scene x'.id = none := by
    rw [← Option.not_isSome_iff_eq_none, WorkingSet.skeleton, Option.isSome_map, hsound.known, hid]
    exact hfresh
  refine ⟨_, hfollows.edit_add hnew fun p hp => ⟨(hparent p hp).2, (hparent p hp).1⟩,
    hsound.add hadds hid hkind hsame, ?_⟩
  show Scene.Follows _ ((w.add (.ofEntity x')).skeleton scene) _ _
  rw [WorkingSet.skeleton_add]
  refine hfollows.insert hnew fun y hy => ?_
  -- the new entity may be taken out later only if it came without children
  by_cases hyx : y = x'.id
  · refine .inl ⟨hyx, ?_⟩
    rw [hchildren]
    exact hy e (by simp) x hadds (by rw [hyx, hid])
  · exact .inr ⟨hyx, hy.of_append⟩

/-- A removal of what is there is accepted: both lose it, with what is disabled below it. -/
theorem edit_of_remove (role : Role) (h : InBoth w scene t done R) {w' : WorkingSet α}
    {id : EntityId} (hknown : (w.shown scene id).isSome = true) (hR : id ∉ R)
    (hchildless : Childless done id) (hw : WorkingSet.Disables scene id w w') :
    ∃ t', t.edit (.remove role id) = .ok t' ∧ InBoth w' scene t' done (R ++ [id]) := by
  obtain ⟨hsound, hfollows⟩ := h
  rw [← Option.isSome_map (f := (·.parent))] at hknown
  obtain ⟨e, he, hedit⟩ := hfollows.edit_remove role hknown hR
  refine ⟨_, hedit, hsound.remove hw, ?_⟩
  rw [hw.skeleton]
  have hremoved : (fun x => x ∈ R ∨ x = id) = (· ∈ R ++ [id]) := by
    funext x
    simp
  exact hremoved ▸ hfollows.remove he hchildless

/-- The way up from a surrogate that can collide is in order when the
collision query has an answer. -/
theorem parent_of_collide {options : CollisionOptions α}
    (huse : options.useSurrogates = true) {e : Edit α} (hr : e.kind.isRemove = false)
    {s : Surrogate α} (hmade : w.surrogateFor scene (.single header e) = .ok (some s))
    (hkind : s.kind ≠ .zone) (henabled : s.enabled = true) {found : Option (List EntityId)}
    (hcollide : w.collide scene (.single header e) options true = .ok found) {p : EntityId}
    (hp : s.parent = some p) :
    (w.skeleton scene p).isSome = true ∧ ¬Relation.ReflTransGen (w.skeleton scene).Link p s.id := by
  obtain ⟨chain, hchain⟩ := WorkingSet.ancestors_of_collide huse
    (show (Command.single header e).kind.isRemove = false from hr) hmade hkind henabled hcollide
  exact WorkingSet.no_way_back hchain hp

/-- A parent that a batch that fits gives an entity is there and not below the entity. -/
theorem parent_of_reparent (h : InBoth w scene t done R) {options : CollisionOptions α}
    (huse : options.useSurrogates = true) {id : EntityId} {before after : Attachment α}
    (hfits : (Edit.reparent id before after).Fits scene done) (hR : id ∉ R)
    (hremoved : ∀ x ∈ R, ∃ b ∈ done, b.removes? = some x) {s : Surrogate α}
    (hmade : w.surrogateFor scene (.single header (.reparent id before after)) = .ok (some s))
    (hcollide : ∃ found, w.collide scene (.single header (.reparent id before after)) options true =
      .ok found) {p : EntityId} (hp : after.parent = some p) :
    (w.skeleton scene p).isSome = true ∧ ¬Relation.ReflTransGen (w.skeleton scene).Link p s.id := by
  obtain ⟨q, hq, hid, hqs⟩ := h.1.made_eq hmade
  have hq : w.shown scene id = some q := hq
  cases hqs
  have hid : q.id = id := hid
  have hloose :
      (KnownZone scene done id ∨ ∃ b ∈ done, ∃ id', b.removes? = some id' ∧ scene.Below id id') →
      (w.skeleton scene p).isSome = true ∧
        ¬Relation.ReflTransGen (w.skeleton scene).Link p q.id := by
    intro hcase
    obtain ⟨hknown, hback⟩ := hfits.loose id before after rfl hcase p hp
    rw [← h.1.known, ← Option.isSome_map (f := (·.parent))] at hknown
    refine ⟨hknown, fun hway => hback ?_⟩
    rw [← hid]
    exact hway.lift (fun x => x) fun _ _ => h.1.linked_of_link
  -- the query walks up from anything but zones and what goes with a removed entity
  by_cases hkind : q.kind = .zone
  · exact hloose (.inl (h.1.zone hq hkind))
  · cases henabled : q.enabled with
    | true =>
      obtain ⟨found, hfound⟩ := hcollide
      exact parent_of_collide huse rfl hmade hkind henabled hfound hp
    | false =>
      rcases h.1.disabled hq henabled with hx | ⟨y, hy, hbelow⟩
      · exact absurd hx hR
      · obtain ⟨b, hb, hby⟩ := hremoved y hy
        exact hloose (.inr ⟨b, hb, y, hby, hbelow⟩)

/-- The parent under which a batch that fits puts an entity in is there. -/
theorem parent_of_add (h : InBoth w scene t done R) {options : CollisionOptions α}
    (huse : options.useSurrogates = true) {role : Role} {x x' : Entity α}
    (hfits : (Edit.add role x).Fits scene done) (hkind : x'.kind = x.kind)
    (hparent : x'.parent = x.parent)
    (hmade : w.surrogateFor scene (.single header (.add role x')) = .ok made)
    (hcollide : ∃ found, w.collide scene (.single header (.add role x')) options true = .ok found)
    {p : EntityId} (hp : x'.parent = some p) : (w.skeleton scene p).isSome = true := by
  by_cases hz : x.kind = .zone
  · have hknown := hfits.zoneAdded x rfl hz p (hparent.symm.trans hp)
    rwa [← h.1.known, ← Option.isSome_map (f := (·.parent))] at hknown
  · obtain ⟨found, hfound⟩ := hcollide
    obtain ⟨q, hq, _, hqs⟩ := h.1.made_eq hmade
    obtain rfl : Surrogate.ofEntity x' = q := Option.some.inj hq
    have hxz : (Surrogate.ofEntity x').kind ≠ .zone := fun h => hz (hkind.symm.trans h)
    rw [hqs] at hmade
    exact (parent_of_collide huse rfl hmade hxz rfl hfound hp).1

/--
An edit of a batch that fits is one the scene accepts, when its effect can be computed and, where it
places its entity, the collision query about it has an answer.
-/
theorem accepted_of_fits (h : InBoth w scene t done R) (options : CollisionOptions α)
    (huse : options.useSurrogates = true) {e e' : Edit α}
    (hresited : Command.Resited (.single header e) (.single header e')) (he : e.removes? = none)
    (hfits : e.Fits scene done) (hremoved : ∀ x ∈ R, ∃ b ∈ done, b.removes? = some x)
    (hmade : w.surrogateFor scene (.single header e') = .ok made)
    (hcollide : e.kind.places = true →
      ∃ found, w.collide scene (.single header e') options true = .ok found) :
    ∃ t', t.edit e' = .ok t' ∧ InBoth (w.addIfAny made) scene t' (done ++ [e]) R := by
  -- an edit that fits names nothing removed before it
  have hlive : ∀ x ∈ R, ¬e.Names x := fun x hx => by
    obtain ⟨b, hb, hbx⟩ := hremoved x hx
    exact hfits.live b hb x hbx
  have hR : e.entityId ∉ R := fun hx => hlive _ hx (.inl rfl)
  cases e with
  | remove => cases he
  | rotate | scale | changeProperty => cases hresited; exact edit_of_stays h rfl rfl hR hmade
  | move => cases hresited <;> exact edit_of_stays h rfl rfl hR hmade
  | reparent id before after =>
    cases hresited
    refine edit_of_reparent h hR hmade fun s hs p hp => ⟨fun hx => hlive p hx (.inr hp), ?_⟩
    rw [hs] at hmade
    exact parent_of_reparent h huse hfits hR hremoved hmade (hcollide rfl) hp
  | add role x =>
    have hadd : ∀ x' : Entity α, e' = .add role x' → x'.id = x.id → x'.kind = x.kind →
        x'.children = x.children → x'.parent = x.parent →
        ∃ t', t.edit e' = .ok t' ∧ InBoth (w.addIfAny made) scene t' (done ++ [.add role x]) R := by
      rintro x' rfl hid hkind hchildren hparent
      refine edit_of_add h rfl hid hkind hchildren hparent (hfits.fresh x rfl) hmade
        fun p hp => ⟨?_, ?_⟩
      · exact fun hx => hlive p hx (.inr (hparent.symm.trans hp))
      · exact parent_of_add h huse hfits hkind hparent hmade (hcollide rfl) hp
    -- an add may have been snapped to the grid; its links are the same
    cases hresited with
    | same => exact hadd x rfl rfl rfl rfl rfl
    | add _ _ _ position => exact hadd { x with position := position } rfl rfl rfl rfl rfl

end Effects

/-!
## Removals and their cascade

Removals come from the batch, and from the cascade for what hangs below. The numbers of all of them
are apart, so nothing is to be removed a second time.
-/

/-- The numbers that are going to be removed are apart from each other,
and from those removed before. -/
def Apart (scene : Scene α) (removed pending : List EntityId) : Prop :=
  (removed ++ pending).Nodup ∧ ∀ x ∈ pending, ∀ y ∈ removed ++ pending, ¬scene.Below y x

section Removals

variable {scene : Scene α} {w : WorkingSet α} {R xs : List EntityId} {x id : EntityId}

theorem parentLink_of_listed (hscene : scene.LinksAgree) {c : EntityId} (hc : c ∈ scene.listed x) :
    scene.ParentLink c x := Scene.skeleton_link.1 (hscene.link_of_listed hc)

theorem nodup_listed (hscene : scene.LinksAgree) (x : EntityId) : (scene.listed x).Nodup := by
  refine List.nodup_iff_count_le_one.2 fun c => ?_
  by_cases hc : c ∈ scene.listed x
  · rw [hscene.count_listed (hscene.link_of_listed hc)]
  · rw [List.count_eq_zero_of_not_mem hc]
    exact Nat.zero_le 1

/-- What is below somebody is so through its parent. -/
theorem below_of_parentLink {c z : EntityId} (h : scene.Below c z) (hl : scene.ParentLink c x) :
    x = z ∨ scene.Below x z := by
  rcases Relation.TransGen.head'_iff.1 h with ⟨x', hx', hrest⟩
  obtain rfl := hl.parent_unique hx'
  exact (Relation.reflTransGen_iff_eq_or_transGen.1 hrest).imp_left Eq.symm

/-- The children of a removed entity take its place among what is going to be removed. -/
theorem Apart.remove (hscene : scene.LinksAgree) (hacyclic : scene.Acyclic)
    (h : Apart scene R (x :: xs)) : Apart scene (R ++ [x]) (xs ++ scene.listed x) := by
  obtain ⟨hnodup, hapart⟩ := h
  have hassoc : R ++ [x] ++ (xs ++ scene.listed x) = (R ++ x :: xs) ++ scene.listed x := by simp
  have hx := hapart x List.mem_cons_self
  have hchild : ∀ {c}, c ∈ scene.listed x → scene.ParentLink c x := parentLink_of_listed hscene
  refine ⟨?_, fun z hz y hy hbelow => ?_⟩
  · rw [hassoc]
    refine List.nodup_append.2 ⟨hnodup, nodup_listed hscene x, fun y hy c hc hyc => ?_⟩
    exact hx y hy (hyc ▸ .single (hchild hc))
  · rw [hassoc] at hy
    -- each of the two is an old member of the line or a child of `x`
    rcases List.mem_append.1 hz with hz | hz <;> rcases List.mem_append.1 hy with hy | hy
    · exact hapart z (List.mem_cons_of_mem _ hz) y hy hbelow
    · -- a child of `x` is below `z` only if `x` is, or is `z` itself
      rcases below_of_parentLink hbelow (hchild hy) with rfl | hbelow
      · exact absurd hz (List.nodup_cons.1 (List.nodup_append.1 hnodup).2.1).1
      · exact hapart z (List.mem_cons_of_mem _ hz) x (by simp) hbelow
    · exact hx y hy (hbelow.tail (hchild hz))
    · rcases below_of_parentLink hbelow (hchild hy) with rfl | hbelow
      · exact hacyclic x (.single (hchild hz))
      · exact hacyclic x (hbelow.tail (hchild hz))

/-- What holds of an edit and any edit before it holds of any two. -/
theorem pairwise_of_splits {P : Edit α → Edit α → Prop} {es : List (Edit α)}
    (h : ∀ before e after, es = before ++ e :: after → ∀ b ∈ before, P b e) : es.Pairwise P := by
  induction es using List.reverseRecOn with
  | nil => exact .nil
  | append_singleton es e ih =>
    refine List.pairwise_append.2 ⟨ih fun before e' after hes => ?_,
      List.pairwise_singleton P e, ?_⟩
    · exact h before e' (after ++ [e]) (by rw [hes, List.append_assoc]; rfl)
    · intro b hb e' he'
      rw [List.mem_singleton.1 he']
      exact h es e [] rfl b hb

/-- Removals of a batch that fits are apart from each other. -/
theorem apart_of_fits (hacyclic : scene.Acyclic) {c : Command α} (hfits : c.Fits scene) :
    Apart scene [] (c.edits.filterMap Edit.removes?) := by
  have hpairs : (c.edits.filterMap Edit.removes?).Pairwise fun x y =>
      x ≠ y ∧ ¬scene.Below y x ∧ ¬scene.Below x y := by
    refine List.pairwise_filterMap.2
      (pairwise_of_splits fun before e after hes b hb x hx y hy => ?_)
    have hfit := hfits before e after hes
    refine ⟨fun hxy => hfit.live b hb x hx (.inl ?_), hfit.apart y hy b hb x hx⟩
    cases e with
    | remove role id => exact (Option.some.inj hy).trans hxy.symm
    | _ => cases hy
  refine ⟨hpairs.imp And.left, fun x hx y hy hbelow => ?_⟩
  -- both directions of the pairs are needed, since one list may name the two either way round
  have hsymm : Std.Symm fun x y => ¬scene.Below y x ∧ ¬scene.Below x y := ⟨fun _ _ => And.symm⟩
  have hboth := (hpairs.imp And.right).forall_of_forall fun z _ => ⟨hacyclic z, hacyclic z⟩
  exact (hboth hx hy).1 hbelow

/-- What a cascade staged is what was shown before,
or its disabled copy below the removed entity. -/
theorem shown_of_cascade [Scalar α] {done : List (Edit α)}
    (hsound : WorkingSet.Sound scene done R w) {staged : List (Surrogate α)}
    (hstaged : ∀ s ∈ staged, ∃ x e, scene.get? x = some e ∧ scene.Below x id ∧
      s = ((w.get? x).getD (.ofEntity e)).disabled) (x : EntityId) :
    (Transaction.stageAll { working := w } staged).working.shown scene x = w.shown scene x ∨
      ∃ q, w.shown scene x = some q ∧
        (Transaction.stageAll { working := w } staged).working.shown scene x = some q.disabled ∧
        scene.Below x id := by
  rcases Transaction.get?_stageAll staged { working := w } x with h | ⟨s, hs, hid, h⟩
  · refine .inl ?_
    rw [WorkingSet.shown, h]
    rfl
  · obtain ⟨z, e, he, hbelow, rfl⟩ := hstaged s hs
    have hq : w.shown scene z = some ((w.get? z).getD (.ofEntity e)) := by
      rw [WorkingSet.shown, Scene.surrogate?, he]
      cases w.get? z <;> rfl
    -- a surrogate is staged under its own id, so it was made from what is shown there
    obtain rfl : z = x := (hsound.keyed hq).symm.trans hid
    refine .inr ⟨_, hq, ?_, hbelow⟩
    rw [WorkingSet.shown, h]
    rfl

/-- What the cascade staged and what the removal made are the surrogates of before, disabled. -/
theorem disables_of_removal [Scalar α] {done : List (Edit α)}
    (hsound : WorkingSet.Sound scene done R w) {c : Command α} (hc : c.Removes id)
    {staged : List (Surrogate α)}
    (hstaged : ∀ s ∈ staged, ∃ x e, scene.get? x = some e ∧ scene.Below x id ∧
      s = ((w.get? x).getD (.ofEntity e)).disabled) {made : Option (Surrogate α)}
    (hmade : (Transaction.stageAll { working := w } staged).working.surrogateFor scene
      c = .ok made) :
    (w.shown scene id).isSome = true ∧ WorkingSet.Disables scene id w
      ((Transaction.stageAll { working := w } staged).working.addIfAny made) := by
  have hcascade := shown_of_cascade hsound hstaged
  generalize (Transaction.stageAll { working := w } staged).working = w₁ at hmade hcascade ⊢
  obtain ⟨header, role, rfl, _⟩ := hc
  -- what the cascade left under the removed number differs from what was
  -- there by being disabled at most
  have hleft : ∀ q₁, w₁.shown scene id = some q₁ →
      ∃ q, w.shown scene id = some q ∧ q₁.disabled = q.disabled ∧ q₁.id = id := by
    intro q₁ hq₁
    rcases hcascade id with h | ⟨q, hq, h, _⟩
    · have hq := h.symm.trans hq₁
      exact ⟨q₁, hq, rfl, hsound.keyed hq⟩
    · obtain rfl : q.disabled = q₁ := Option.some.inj (h.symm.trans hq₁)
      have hid : q.id = id := hsound.keyed hq
      exact ⟨q, hq, rfl, hid⟩
  have hkeyed : ∀ q₁, w₁.base? scene (.remove role id) = some q₁ → q₁.id = id := fun q₁ hq₁ =>
    let ⟨_, _, _, hid⟩ := hleft q₁ hq₁
    hid
  obtain ⟨q₁, hq₁, hid, rfl⟩ := WorkingSet.made_eq hkeyed hmade
  obtain ⟨q, hq, hdisabled, _⟩ := hleft q₁ hq₁
  refine ⟨by rw [hq]; rfl, fun x => ?_⟩
  show (w₁.add q₁.disabled).shown scene x = _ ∨ ∃ q, _ ∧ (w₁.add q₁.disabled).shown scene x = _ ∧ _
  rw [WorkingSet.shown_add, show q₁.disabled.id = id from hid]
  split
  case isTrue hx => exact .inr ⟨q, hx ▸ hq, by rw [hdisabled], .inl hx⟩
  case isFalse =>
    rcases hcascade x with h | ⟨q, hq, h, hbelow⟩
    · exact .inl h
    · exact .inr ⟨q, hq, h, .inr hbelow⟩

end Removals

end SceneGuard
