import Mathlib.Data.Fintype.Card
import Mathlib.Data.Fintype.EquivFin
import Mathlib.Logic.Function.Basic
import SceneGuard.Proofs.Scene.Links

/-!
# Scenes that follow a skeleton

A removal hands the children of the entity to its parent, while on the side of the surrogates they
go on pointing to the entity that is gone. A scene follows what the surrogates say (`Scene.Follows`)
when each of its parent links is a way along theirs that passes removed entities only
(`Skeleton.Over`). Main statements:

* `Follows.insert`, `Follows.update`, `Follows.reparent`, `Follows.remove` — each edit keeps the
  scene following, when the skeleton changes at the entity of the edit alone, and at a removal not
  at all;
* `Follows.isAncestor_eq_false` — where no way of the skeleton leads back, the scene sees no cycle.
-/

namespace SceneGuard

/-! ## Relations without cycles -/

/-- A relation between numbers that leads nobody back to themselves ends,
since there are finitely many. -/
theorem wellFounded_of_acyclic {R : EntityId → EntityId → Prop}
    (h : ∀ id, ¬Relation.TransGen R id id) : WellFounded (Relation.TransGen R) := by
  have : Finite EntityId := .of_injective UInt64.toFin fun _ _ => UInt64.toFin_inj.1
  have : IsTrans EntityId (Relation.TransGen R) := ⟨fun _ _ _ => .trans⟩
  have : Std.Irrefl (Relation.TransGen R) := ⟨h⟩
  exact Finite.wellFounded_of_trans_of_irrefl _

/-- Without a cycle one can go down from parents to children for so long only. -/
theorem Scene.Acyclic.wellFounded {α : Type} {s : Scene α} (h : s.Acyclic) :
    WellFounded fun p c => s.Below c p := by
  have hdown : WellFounded (Relation.TransGen (Function.swap s.ParentLink)) :=
    wellFounded_of_acyclic fun id hid => h id (Relation.transGen_swap.1 hid)
  exact Subrelation.wf (fun hbelow => Relation.transGen_swap.2 hbelow) hdown

/-!
## Skeletons

Of a hierarchy only the parents matter here. On the side of surrogates they stay as they are when an
entity is removed, while the scene hands its children on; `Over` bridges the gap.
-/

/-- For each number that is known, the parent it is known with. -/
abbrev Skeleton := EntityId → Option (Option EntityId)

namespace Skeleton

variable {σ : Skeleton} {R R' : EntityId → Prop} {c p x : EntityId}

def Link (σ : Skeleton) (c p : EntityId) : Prop := σ c = some (some p)

/-- A way up from `c` to `p` that passes removed entities only. -/
inductive Over (σ : Skeleton) (R : EntityId → Prop) : EntityId → EntityId → Prop where
  | link {c p : EntityId} (h : σ.Link c p) : Over σ R c p
  | past {c r p : EntityId} (h : σ.Link c r) (hr : R r) (hrest : Over σ R r p) : Over σ R c p

namespace Over

/-- A way over removed entities is a way. -/
theorem transGen (h : σ.Over R c p) : Relation.TransGen σ.Link c p := by
  induction h with
  | link h => exact .single h
  | past h _ _ ih => exact .head h ih

/-- With more of them removed it is one still. -/
theorem mono (h : σ.Over R c p) (hR : ∀ x, R x → R' x) : σ.Over R' c p := by
  induction h with
  | link h => exact .link h
  | past h hr _ ih => exact .past h (hR _ hr) ih

/-- Two ways that meet at a removed entity make one. -/
theorem trans (h : σ.Over R c x) (hx : R x) (h' : σ.Over R x p) : σ.Over R c p := by
  induction h with
  | link h => exact .past h hx h'
  | past h hr _ ih => exact .past h hr (ih hx h')

/-- A way that neither starts at `x` nor could pass it does not depend on the parent of `x`. -/
theorem update (h : σ.Over R c p) (hx : ¬R x) (hc : c ≠ x) (parent : Option (Option EntityId)) :
    Over (Function.update σ x parent) R c p := by
  induction h with
  | link h => exact .link (by rwa [Link, Function.update_of_ne hc])
  | past h hr _ ih =>
    exact .past (by rwa [Link, Function.update_of_ne hc]) hr (ih fun he => hx (he ▸ hr))

end Over

end Skeleton

namespace Scene

variable {α : Type} {s t t' : Scene α} {σ : Skeleton} {R T : EntityId → Prop} {id : EntityId}
  {e : Entity α}

/-!
## The skeleton of a scene

Each edit is taken down twice: by what it does to the parents, and by what it does to the lists of
children.
-/

/-- The parents that the entities of a scene have. -/
def skeleton (s : Scene α) : Skeleton := fun x => (s.get? x).map (·.parent)

/-- The children that the entity at a number lists; none where there is no entity. -/
def listed (s : Scene α) (x : EntityId) : List EntityId := ((s.get? x).map (·.children)).getD []

/-- The links of the skeleton are the parent links of the scene. -/
theorem skeleton_link {c p : EntityId} : s.skeleton.Link c p ↔ s.ParentLink c p :=
  Option.map_eq_some_iff

theorem skeleton_link_eq (s : Scene α) : s.skeleton.Link = s.ParentLink :=
  funext₂ fun _ _ => propext skeleton_link

/-- An entity has its parent in the skeleton. -/
theorem skeleton_of_get? (he : s.get? id = some e) : s.skeleton id = some e.parent := by
  rw [skeleton, he]
  rfl

theorem listed_of_get? (he : s.get? id = some e) : s.listed id = e.children := by
  rw [listed, he]
  rfl

theorem listed_of_get?_eq_none (h : s.get? id = none) : s.listed id = [] := by
  rw [listed, h]
  rfl

theorem LinksAgree.link_of_listed (h : s.LinksAgree) {c p : EntityId} (hc : c ∈ s.listed p) :
    s.skeleton.Link c p := by
  cases hq : s.get? p with
  | none => rw [listed_of_get?_eq_none hq] at hc; cases hc
  | some q => exact skeleton_link.2 (h.claimed hq (listed_of_get? hq ▸ hc))

theorem LinksAgree.count_listed (h : s.LinksAgree) {c p : EntityId} (hl : s.skeleton.Link c p) :
    (s.listed p).count c = 1 := by
  obtain ⟨q, hq, hcount⟩ := h.listed (skeleton_link.1 hl)
  rw [listed_of_get? hq, hcount]

theorem LinksAgree.mem_listed (h : s.LinksAgree) {c p : EntityId} :
    c ∈ s.listed p ↔ s.skeleton.Link c p := by
  refine ⟨h.link_of_listed, fun hl => List.count_pos_iff.1 ?_⟩
  rw [h.count_listed hl]
  exact Nat.one_pos

theorem LinksAgree.count_eq_zero (h : s.LinksAgree) {c p : EntityId} (hl : ¬s.skeleton.Link c p) :
    (s.listed p).count c = 0 :=
  List.count_eq_zero_of_not_mem fun hc => hl (h.link_of_listed hc)

/-- To agree is to list whoever has the link, once, and nobody else. -/
theorem linksAgree_of (hclaimed : ∀ c p, c ∈ s.listed p → s.skeleton.Link c p)
    (hcount : ∀ c p, s.skeleton.Link c p → (s.listed p).count c = 1) : s.LinksAgree where
  listed {c p} hl := by
    have hc := hcount c p (skeleton_link.2 hl)
    cases hq : s.get? p with
    | none => rw [listed_of_get?_eq_none hq] at hc; cases hc
    | some q => exact ⟨q, rfl, listed_of_get? hq ▸ hc⟩
  claimed {p q c} hq hc := skeleton_link.1 (hclaimed c p (by rwa [listed_of_get? hq]))

/-- A change that keeps parents keeps the skeleton. -/
theorem skeleton_modify {f : Entity α → Entity α} (hf : ∀ q, (f q).parent = q.parent) (s : Scene α)
    (id : EntityId) : (s.modify id f).skeleton = s.skeleton := by
  funext x
  unfold skeleton
  rw [get?_modify]
  split
  · next hx => subst hx; cases s.get? x <;> simp [hf]
  · rfl

/-- A change that keeps lists keeps who is listed. -/
theorem listed_modify {f : Entity α → Entity α}
    (hf : ∀ q, (f q).children = q.children) (s : Scene α) (id x : EntityId) :
    (s.modify id f).listed x = s.listed x := by
  unfold listed
  rw [get?_modify]
  split
  · next hx => subst hx; cases s.get? x <;> simp [hf]
  · rfl

/-- An added entity is in the skeleton with its parent. -/
theorem skeleton_inserted (s : Scene α) (e : Entity α) :
    (s.inserted e).skeleton = Function.update s.skeleton e.id (some e.parent) := by
  funext x
  unfold skeleton
  rw [get?_inserted]
  by_cases hx : x = e.id
  · rw [if_pos hx, hx, Function.update_self]
    rfl
  · rw [if_neg hx, Function.update_of_ne hx]
    split
    · cases s.get? x with
      | none => rfl
      | some q => simp only [Option.map_some, enlist]; split <;> rfl
    · rfl

/-- After an addition somebody is listed by the new entity, or as before, or is the new one. -/
theorem listed_inserted {c x : EntityId} (hc : c ∈ (s.inserted e).listed x) :
    x = e.id ∧ c ∈ e.children ∨ x ≠ e.id ∧ (c ∈ s.listed x ∨ c = e.id ∧ e.parent = some x) := by
  unfold listed at hc ⊢
  rw [get?_inserted] at hc
  -- the new entity brings its own list; of the others only its parent's list grows
  by_cases hx : x = e.id
  · rw [if_pos hx] at hc
    exact .inl ⟨hx, hc⟩
  · rw [if_neg hx] at hc
    refine .inr ⟨hx, ?_⟩
    split at hc
    · next hp =>
      cases hq : s.get? x with
      | none => rw [hq] at hc; simp at hc
      | some q =>
        rw [hq, Option.map_some, Option.map_some, Option.getD_some, enlist] at hc
        split at hc
        · exact .inl hc
        · exact (List.mem_append.1 hc).imp_right fun hc => ⟨List.mem_singleton.1 hc, hp⟩
    · exact .inl hc

/-- A reparenting changes the skeleton at its entity. -/
theorem skeleton_reparented (he : s.get? id = some e) (target : Attachment α) :
    (s.reparented id e target).skeleton = Function.update s.skeleton id (some target.parent) := by
  funext x
  unfold skeleton
  rw [get?_reparented s id x e target he]
  by_cases hx : x = id
  · rw [hx, he, Function.update_self]
    simp
  · rw [Function.update_of_ne hx]
    cases s.get? x with
    | none => rfl
    | some q =>
      simp only [Option.map_some, hx, if_false]
      split
      · rfl
      · split <;> split <;> rfl

/-- After it somebody is listed as before, or is the entity that now hangs there. -/
theorem listed_reparented (he : s.get? id = some e) {target : Attachment α} {c x : EntityId}
    (hc : c ∈ (s.reparented id e target).listed x) :
    c ∈ s.listed x ∧ (c = id → e.parent = some x → target.parent = some x) ∨
      c = id ∧ target.parent = some x := by
  unfold listed at hc ⊢
  rw [get?_reparented s id x e target he] at hc
  cases hq : s.get? x with
  | none => rw [hq] at hc; simp at hc
  | some q =>
    rw [hq] at hc
    -- under the same parent no list changes, and else two lists do
    by_cases hsame : e.parent = target.parent
    · refine .inl ⟨?_, fun _ hp => hsame ▸ hp⟩
      simp only [hsame, if_true, Option.map_some, Option.getD_some] at hc
      split at hc <;> exact hc
    · have hc : c ∈ (if target.parent = some x then
          (if e.parent = some x then delist id q else q).children ++ [id]
          else (if e.parent = some x then delist id q else q).children) := by
        have hplace : ∀ q₁ : Entity α, (if x = id then
            { q₁ with parent := target.parent, position := target.position } else q₁).children =
            q₁.children := fun q₁ => by split <;> rfl
        simp only [hsame, if_false, Option.map_some, Option.getD_some] at hc
        rwa [hplace, apply_ite Entity.children] at hc
      have hold : c ∈ (if e.parent = some x then delist id q else q).children →
          c ∈ q.children ∧ (c = id → e.parent = some x → target.parent = some x) := by
        intro hc
        split at hc
        · simp only [delist, List.mem_filter, decide_eq_true_eq] at hc
          exact ⟨hc.1, fun he => absurd he hc.2⟩
        · next hp => exact ⟨hc, fun _ h => absurd h hp⟩
      split at hc
      · next hp =>
        rcases List.mem_append.1 hc with hc | hc
        · exact .inl (hold hc)
        · exact .inr ⟨List.mem_singleton.1 hc, hp⟩
      · exact .inl (hold hc)

/-- A removal takes its entity out, and its children get its parent. -/
theorem skeleton_removed (s : Scene α) (id : EntityId) (e : Entity α) :
    (s.removed id e).skeleton = fun x =>
      if x = id then none else (s.skeleton x).map fun p => if x ∈ e.children
          then e.parent else p := by
  funext x
  unfold skeleton
  rw [get?_removed]
  split
  · rfl
  · cases s.get? x with
    | none => rfl
    | some q => simp only [Option.map_some]; split <;> split <;> rfl

/-- After it somebody is listed as before, or was a child of the entity and has come up. -/
theorem listed_removed {c x : EntityId} (hc : c ∈ (s.removed id e).listed x) :
    x ≠ id ∧ (c ∈ s.listed x ∧ (c = id → e.parent ≠ some x) ∨ e.parent = some x ∧
      c ∈ e.children) := by
  unfold listed at hc ⊢
  rw [get?_removed] at hc
  by_cases hx : x = id
  · simp [hx] at hc
  · refine ⟨hx, ?_⟩
    rw [if_neg hx] at hc
    cases hq : s.get? x with
    | none => rw [hq] at hc; simp at hc
    | some q =>
      rw [hq] at hc
      -- only the parent's list changes: the entity goes, and its children come
      have hc : c ∈ (if e.parent = some x then adopt id e.children q else q).children := by
        simp only [Option.map_some, Option.getD_some] at hc
        split at hc <;> exact hc
      split at hc
      · next hp =>
        simp only [adopt, List.mem_append, List.mem_filter, decide_eq_true_eq] at hc
        rcases hc with hc | hc
        · exact .inl ⟨hc.1, fun he => absurd he hc.2⟩
        · exact .inr ⟨hp, hc⟩
      · next hp => exact .inl ⟨hc, fun _ => hp⟩

/-!
## Following a skeleton

There is one lemma for each edit. Additions and reparentings change skeleton and scene alike; a
removal changes the scene only, and lets ways pass one more entity.
-/

/--
The scene has what is known and not removed, and its links are ways of the skeleton past removed
entities. The entities in `T` list only children that are theirs.
-/
structure Follows (t : Scene α) (σ : Skeleton) (R T : EntityId → Prop) : Prop where
  present : ∀ x, (t.skeleton x).isSome = true ↔ (σ x).isSome = true ∧ ¬R x
  known : ∀ x, R x → (σ x).isSome = true
  climbs : ∀ {c p}, t.skeleton.Link c p → σ.Over R c p
  claimed : ∀ {c p}, T p → c ∈ t.listed p → t.skeleton.Link c p

/-- A scene whose links and lists agree follows its own skeleton. -/
theorem LinkConsistent.follows (h : s.LinkConsistent) :
    s.Follows s.skeleton (fun _ => False) (fun _ => True) where
  present x := by simp
  known _ := False.elim
  climbs hl := .link hl
  claimed _ hc := h.linksAgree.link_of_listed hc

namespace Follows

theorem not_removed (h : t.Follows σ R T) (he : t.get? id = some e) : ¬R id :=
  ((h.present id).1 (by rw [skeleton_of_get? he]; rfl)).2

/-- Who is known and was not removed is still there. -/
theorem get?_isSome (h : t.Follows σ R T) (hknown : (σ id).isSome = true) (hR : ¬R id) :
    ∃ e, t.get? id = some e := by
  have hs := (h.present id).2 ⟨hknown, hR⟩
  rw [skeleton, Option.isSome_map] at hs
  exact Option.isSome_iff_exists.1 hs

theorem weaken (h : t.Follows σ R T) {T' : EntityId → Prop} (hT : ∀ x, T' x → T x) :
    t.Follows σ R T' :=
  ⟨h.present, h.known, h.climbs, fun hp hc => h.claimed (hT _ hp) hc⟩

/-- A change that keeps parents and lists goes along with any skeleton. -/
theorem update (h : t.Follows σ R T) {f : Entity α → Entity α}
    (hparent : ∀ q, (f q).parent = q.parent) (hchildren : ∀ q, (f q).children = q.children)
    (id : EntityId) : (t.modify id f).Follows σ R T where
  present x := by rw [skeleton_modify hparent, h.present]
  known := h.known
  climbs hl := h.climbs (by rwa [skeleton_modify hparent] at hl)
  claimed hp hc := by
    rw [skeleton_modify hparent]
    exact h.claimed hp (by rwa [listed_modify hchildren] at hc)

/-- A scene that hangs one entity anew follows a skeleton that does,
as far as its lists go along. -/
theorem hang (h : t.Follows σ R T) (hR : ¬R id) {t' : Scene α} {parent : Option EntityId}
    (hskeleton : t'.skeleton = Function.update t.skeleton id (some parent)) {T' : EntityId → Prop}
    (hclaimed : ∀ {c p}, T' p → c ∈ t'.listed p → t'.skeleton.Link c p) :
    t'.Follows (Function.update σ id (some parent)) R T' where
  present x := by
    rw [hskeleton]
    by_cases hx : x = id
    · simp [hx, hR]
    · rw [Function.update_of_ne hx, Function.update_of_ne hx, h.present]
  known x hx := by
    by_cases hxe : x = id
    · rw [hxe, Function.update_self]
      rfl
    · rw [Function.update_of_ne hxe]
      exact h.known x hx
  -- a chain of the old links that met `id` goes on from its new parent
  climbs {c p} hl := by
    rw [hskeleton] at hl
    by_cases hc : c = id
    · exact .link (by rwa [Skeleton.Link, hc, Function.update_self] at hl ⊢)
    · exact (h.climbs (by rwa [Skeleton.Link, Function.update_of_ne hc] at hl)).update hR hc _
  claimed := hclaimed

/-- An addition goes along with the skeleton that has the new entity. -/
theorem insert (h : t.Follows σ R T) (hnew : σ e.id = none) {T' : EntityId → Prop}
    (hT : ∀ x, T' x → x = e.id ∧ e.children = [] ∨ x ≠ e.id ∧ T x) :
    (t.inserted e).Follows (Function.update σ e.id (some e.parent)) R T' := by
  have hR : ¬R e.id := fun hr => by
    have := h.known _ hr
    rw [hnew] at this
    cases this
  have hfree : ¬(t.skeleton e.id).isSome = true := by
    rw [h.present, hnew]
    simp
  refine h.hang hR (skeleton_inserted t e) fun {c p} hp hc => ?_
  rw [skeleton_inserted]
  rcases listed_inserted hc with ⟨hpe, hc⟩ | ⟨hpe, hc⟩
  · rcases hT p hp with ⟨_, hnone⟩ | ⟨hne, _⟩
    · rw [hnone] at hc
      cases hc
    · exact absurd hpe hne
  · have hTp : T p := (hT p hp).elim (fun h => absurd h.1 hpe) (·.2)
    rcases hc with hc | ⟨rfl, hparent⟩
    · have hl := h.claimed hTp hc
      -- nobody listed the new number, for there was no entity at it
      have hce : c ≠ e.id := fun hce => hfree (by rw [← hce, hl]; rfl)
      rwa [Skeleton.Link, Function.update_of_ne hce]
    · rw [Skeleton.Link, Function.update_self, hparent]

theorem reparent (h : t.Follows σ R T) (he : t.get? id = some e) (target : Attachment α) :
    (t.reparented id e target).Follows (Function.update σ id (some target.parent)) R T := by
  refine h.hang (h.not_removed he) (skeleton_reparented he target) fun {c p} hp hc => ?_
  rw [skeleton_reparented he, Skeleton.Link]
  rcases listed_reparented he hc with ⟨hc, hstay⟩ | ⟨rfl, hparent⟩
  · have hl := h.claimed hp hc
    by_cases hci : c = id
    · subst hci
      -- the list is that of the old parent, and so of the new one
      rw [Skeleton.Link, skeleton_of_get? he] at hl
      rw [Function.update_self, hstay rfl (Option.some.inj hl)]
    · rwa [Function.update_of_ne hci]
  · rw [Function.update_self, hparent]

/-- With a removal the skeleton stays as it is, and ways may pass one entity more. -/
theorem remove (h : t.Follows σ R T) (he : t.get? id = some e) (hT : T id) :
    (t.removed id e).Follows σ (fun x => R x ∨ x = id) T := by
  have hclaimed : ∀ {c}, c ∈ e.children → t.skeleton.Link c id := fun hc =>
    h.claimed hT (by rwa [listed_of_get? he])
  have hparent := skeleton_of_get? he
  refine ⟨fun x => ?present, fun x hx => ?known, fun {c p} hl => ?climbs,
    fun {c p} hp hc => ?claimed⟩
  case present =>
    rw [skeleton_removed]
    by_cases hx : x = id
    · simp [hx]
    · simp only [hx, if_false, Option.isSome_map, or_false]
      exact h.present x
  case known =>
    rcases hx with hx | rfl
    · exact h.known x hx
    · exact ((h.present x).1 (by rw [hparent]; rfl)).1
  case climbs =>
    rw [skeleton_removed, Skeleton.Link] at hl
    split at hl
    · cases hl
    · obtain ⟨q, hq, hqp⟩ := Option.map_eq_some_iff.1 hl
      split at hqp
      · next hc =>
        -- a child of the removed entity comes to its parent: one way up after the other
        have hup : σ.Over R c id := h.climbs (hclaimed hc)
        have hon : σ.Over R id p := h.climbs (by rw [Skeleton.Link, hparent, hqp])
        exact (hup.mono fun _ => .inl).trans (.inr rfl) (hon.mono fun _ => .inl)
      · exact (h.climbs (c := c) (p := p) (by rw [Skeleton.Link, hq, hqp])).mono fun _ => .inl
  case claimed =>
    obtain ⟨hpid, hc⟩ := listed_removed hc
    rcases hc with ⟨hc, hcid⟩ | ⟨hep, hc⟩
    · -- whoever stays on the list is neither the removed entity nor a child of it
      have hl := h.claimed hp hc
      have hcid : c ≠ id := fun hid => by
        have hup := hl
        rw [hid, Skeleton.Link, hparent] at hup
        exact hcid hid (Option.some.inj hup)
      have hother : c ∉ e.children := fun hce => by
        have hup := hclaimed hce
        rw [Skeleton.Link, hl] at hup
        exact hpid (Option.some.inj (Option.some.inj hup))
      rw [skeleton_removed, Skeleton.Link, if_neg hcid, hl, Option.map_some, if_neg hother]
    · have hl := hclaimed hc
      by_cases hcid : c = id
      · -- an entity that listed itself was its own parent
        subst hcid
        rw [Skeleton.Link, hparent, hep] at hl
        exact absurd (Option.some.inj (Option.some.inj hl)) hpid
      · rw [skeleton_removed, Skeleton.Link, if_neg hcid, hl, Option.map_some, if_pos hc, hep]

end Follows

/-! ## Cycles -/

/-- What the scene meets on the way up is reached by its links. -/
theorem reflTransGen_of_meets {ancestor : EntityId} {steps : Nat} {start : Option EntityId}
    (h : t.meets ancestor steps start = true) :
    ∃ c, start = some c ∧ Relation.ReflTransGen t.skeleton.Link c ancestor := by
  induction steps generalizing start with
  | zero => simp [meets] at h
  | succ steps ih =>
    cases start with
    | none => simp [meets] at h
    | some c =>
      rw [meets, Bool.or_eq_true, beq_iff_eq] at h
      refine ⟨c, rfl, ?_⟩
      -- met here, or further up
      rcases h with rfl | h
      · exact .refl
      · obtain ⟨p, hp, hrest⟩ := ih h
        refine .head ?_ hrest
        obtain ⟨q, hq, hqp⟩ := Option.bind_eq_some_iff.1 hp
        rw [Skeleton.Link, skeleton_of_get? hq, hqp]

/-- The scene sees no cycle where no way of the skeleton leads back. -/
theorem Follows.isAncestor_eq_false (h : t.Follows σ R T) {p : EntityId}
    (hback : ¬Relation.ReflTransGen σ.Link p id) : t.isAncestor id p = false := by
  cases ha : t.isAncestor id p with
  | false => rfl
  | true =>
    obtain ⟨c, hc, hway⟩ := reflTransGen_of_meets ha
    obtain rfl : p = c := Option.some.inj hc
    refine absurd ?_ hback
    clear ha hc hback
    induction hway with
    | refl => exact .refl
    | tail _ hl ih => exact ih.trans (h.climbs hl).transGen.to_reflTransGen

end Scene

end SceneGuard
