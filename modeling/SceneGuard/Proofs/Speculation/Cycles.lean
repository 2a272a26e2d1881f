import SceneGuard.Proofs.Scene.WellLinked
import SceneGuard.Proofs.Speculation.Application
import SceneGuard.Proofs.Speculation.Placement

/-!
# Cycles in a view

The walk down from an entity fails where known links lead back to it, and only there: it meets
everything else once (`Swept`). So a query complains of a cycle about the entity where there is one.
Where everything that is seen has a line of parents (`Grounded`) no walk complains. Main statements:

* `descendants_of_cycle`, `exists_descendants` — when the walk down fails, and when it has a result;
* `Grounded.neighbours` — the neighbours of an entity come to no cycle where everything is grounded;
* `grounded_of_scene` — a view in which a forest of entities is seen is grounded.
-/

namespace SceneGuard

open Relation

namespace View

variable {α : Type} {id : EntityId} {links : List (EntityId × Option EntityId)}

/-!
## When the walk down fails

The walk keeps what it has found and what it has still to look below, and fails when it meets a
number again. As each number has one parent, that can be none but the number from which it started.
-/

/-- One of the linked numbers is linked to another. -/
def Child (links : List (EntityId × Option EntityId)) (c p : EntityId) : Prop :=
  c ∈ childrenOf links p

/-- Numbers that are linked once have one parent. -/
theorem Child.unique (hlinks : (links.map Prod.fst).Nodup) {c p q : EntityId} (hp : Child links c p)
    (hq : Child links c q) : p = q := by
  have heq := List.inj_on_of_nodup_map hlinks (mem_childrenOf.1 hp) (mem_childrenOf.1 hq) rfl
  exact Option.some.inj (Prod.mk.inj heq).2

/-- What a walk down from `id` has found, and has still to look below. -/
structure Swept (links : List (EntityId × Option EntityId)) (id : EntityId)
    (found frontier : List EntityId) : Prop where
  distinct : found.Nodup
  linked : found ⊆ links.map Prod.fst
  once : frontier.Nodup
  met : ∀ n ∈ frontier, n = id ∨ n ∈ found
  /-- Nothing below the frontier is found yet. -/
  fresh : ∀ n ∈ frontier, ∀ c, Child links c n → c ∉ found
  /-- What is found came from something met before. -/
  source : ∀ c ∈ found, ∃ n, (n = id ∨ n ∈ found) ∧ Child links c n
  below : ∀ c ∈ found, TransGen (Child links) c id

/-- The walk starts with nothing found and the entity itself to look at. -/
theorem Swept.start (links : List (EntityId × Option EntityId)) (id : EntityId) :
    Swept links id [] [id] where
  distinct := .nil
  linked := by simp
  once := by simp
  met := by simp
  fresh := by simp
  source := by simp
  below := by simp

namespace Swept

variable {next : EntityId} {found frontier : List EntityId}

/-- Without a way back to `id`, the children of the next number are new. -/
theorem new_children (h : Swept links id found (next :: frontier))
    (hcycle : ¬TransGen (Child links) id id) {c : EntityId} (hc : Child links c next) :
    c ≠ id ∧ c ∉ found := by
  refine ⟨?_, h.fresh next List.mem_cons_self c hc⟩
  rintro rfl
  rcases h.met next List.mem_cons_self with rfl | hnext
  · exact hcycle (.single hc)
  · exact hcycle (.head hc (h.below next hnext))

/-- The children of the next number are found and come on the frontier. -/
theorem sweep (hlinks : (links.map Prod.fst).Nodup) (h : Swept links id found (next :: frontier))
    (hcycle : ¬TransGen (Child links) id id) :
    Swept links id (found ++ childrenOf links next)
      ((childrenOf links next).reverse ++ frontier) := by
  obtain ⟨hnext, hrest⟩ := List.nodup_cons.1 h.once
  have hmet := h.met next List.mem_cons_self
  -- without a cycle through `id`, a child of the next number has not been found yet
  have hnew : ∀ c, Child links c next → c ≠ id ∧ c ∉ found := fun c hc => h.new_children hcycle hc
  constructor
  case distinct =>
    refine List.nodup_append.2 ⟨h.distinct, nodup_childrenOf hlinks next, ?_⟩
    rintro a ha b hb rfl
    exact (hnew a hb).2 ha
  case linked =>
    refine List.append_subset.2 ⟨h.linked, fun c hc => ?_⟩
    exact List.mem_map.2 ⟨_, mem_childrenOf.1 hc, rfl⟩
  case once =>
    refine List.nodup_append.2 ⟨List.nodup_reverse.2 (nodup_childrenOf hlinks next), hrest, ?_⟩
    rintro a ha b hb rfl
    obtain ⟨hne, hnot⟩ := hnew a (List.mem_reverse.1 ha)
    exact (h.met a (List.mem_cons_of_mem _ hb)).elim hne hnot
  case met =>
    intro n hn
    rcases List.mem_append.1 hn with hn | hn
    · exact .inr (List.mem_append_right _ (List.mem_reverse.1 hn))
    · exact (h.met n (List.mem_cons_of_mem _ hn)).imp_right (List.mem_append_left _)
  case fresh =>
    intro n hn c hc hfound
    rcases List.mem_append.1 hn with hn | hn <;> rcases List.mem_append.1 hfound
      with hfound | hfound
    · -- a child of a new number that was found before would have come from it
      obtain ⟨n', hn', hc'⟩ := h.source c hfound
      obtain rfl := hc.unique hlinks hc'
      obtain ⟨hne, hnot⟩ := hnew n (List.mem_reverse.1 hn)
      exact hn'.elim hne hnot
    · obtain rfl := hc.unique hlinks hfound
      obtain ⟨hne, hnot⟩ := hnew n (List.mem_reverse.1 hn)
      exact hmet.elim hne hnot
    · exact h.fresh n (List.mem_cons_of_mem _ hn) c hc hfound
    · exact hnext (hc.unique hlinks hfound ▸ hn)
  case source =>
    intro c hc
    rcases List.mem_append.1 hc with hc | hc
    · obtain ⟨n, hn, hchild⟩ := h.source c hc
      exact ⟨n, hn.imp_right (List.mem_append_left _), hchild⟩
    · exact ⟨next, hmet.imp_right (List.mem_append_left _), hc⟩
  case below =>
    intro c hc
    rcases List.mem_append.1 hc with hc | hc
    · exact h.below c hc
    · rcases hmet with rfl | hmet
      · exact .single hc
      · exact .head hc (h.below next hmet)

/-- Without a way back to `id` the walk meets nothing again: it has a result,
in which nothing comes twice. -/
theorem collects (hlinks : (links.map Prod.fst).Nodup) (hcycle : ¬TransGen (Child links) id id)
    {r : Except (Fault α) (List EntityId)} (h : Collects id links found frontier r) :
    Swept links id found frontier → ∃ out, r = .ok out ∧ out.Nodup ∧ out ⊆ links.map Prod.fst := by
  induction h with
  | done => exact fun hswept => ⟨_, rfl, hswept.distinct, hswept.linked⟩
  | again hc hmet =>
    intro hswept
    obtain ⟨hne, hnot⟩ := hswept.new_children hcycle hc
    exact absurd hmet (not_or.2 ⟨hne, hnot⟩)
  | sweep _ _ ih => exact fun hswept => ih (hswept.sweep hlinks hcycle)

end Swept

namespace Collects

variable {found frontier out : List EntityId} {r : Except (Fault α) (List EntityId)} {f : Fault α}

/-- A walk down that has a result did not come back to where it started. -/
theorem not_mem (h : Collects id links found frontier r) (hr : r = .ok out) (hid : id ∉ found) :
    id ∉ out := by
  induction h with
  | done => exact Except.ok.inj hr ▸ hid
  | again => cases hr
  | sweep hnew _ ih =>
    refine ih hr fun hmem => ?_
    rcases List.mem_append.1 hmem with hmem | hmem
    · exact hid hmem
    · exact hnew id hmem (.inl rfl)

/-- A walk complains about nothing but a cycle, and about that at the entity it started from. -/
theorem eq_error (h : Collects id links found frontier r) (hr : r = .error f) :
    f = .cyclicHierarchy id := by
  induction h with
  | done => cases hr
  | again => exact (Except.error.inj hr).symm
  | sweep _ _ ih => exact ih hr

end Collects

variable [Scalar α] {v : View α}

/-- Where no known links lead back to the entity, the walk down has a result. -/
theorem exists_descendants (h : ¬TransGen v.KnownLink id id) :
    ∃ below, v.descendants id = .ok below ∧ below.Nodup ∧ below ⊆ v.knownIds := by
  obtain ⟨links, hlinks⟩ := v.exists_links
  have hfst := map_fst_links hlinks
  have hchild : Child links = v.KnownLink :=
    funext₂ fun c p => propext (mem_childrenOf_links hlinks)
  rw [← hfst]
  exact Swept.collects (hfst ▸ v.nodup_knownIds) (hchild ▸ h) (collects_descendants hlinks id)
    (.start links id)

/-- Where known links lead back to the entity, the walk down fails for that. -/
theorem descendants_of_cycle (h : TransGen v.KnownLink id id) :
    v.descendants id = .error (.cyclicHierarchy id) := by
  obtain ⟨links, hlinks⟩ := v.exists_links
  have hcollects := collects_descendants hlinks id
  cases hwalk : v.descendants id with
  | ok below =>
    have hmem := (mem_descendants_iff hwalk).2 h
    exact absurd hmem (hcollects.not_mem hwalk List.not_mem_nil)
  | error f => rw [hcollects.eq_error hwalk]

end View

/-!
## Results without a cycle

Each step of a query either walks or looks something up. Look-ups complain of no cycle, and where
everything is grounded walks do not either; so the complaint comes up nowhere in the query.
-/

section Straight

variable {α β γ : Type}

/-- The result is not the complaint that a way up leads back. -/
def Straight (r : Except (Fault α) β) : Prop := ∀ id, r ≠ .error (.cyclicHierarchy id)

/-- An answer is no complaint about a cycle. -/
theorem straight_ok (b : β) : Straight (.ok b : Except (Fault α) β) := fun _ h => nomatch h

/-- Whether a fault is about a cycle does not depend on what was asked for. -/
theorem Straight.error {f : Fault α} (h : Straight (.error f : Except (Fault α) β)) :
    Straight (.error f : Except (Fault α) γ) :=
  fun id hf => h id (congrArg Except.error (Except.error.inj hf))

/-- Two steps that complain of no cycle make one that does not. -/
theorem Straight.bind {r : Except (Fault α) β} {f : β → Except (Fault α) γ} (hr : Straight r)
    (hf : ∀ b, r = .ok b → Straight (f b)) : Straight (r >>= f) := by
  cases r with
  | ok b => exact hf b rfl
  | error x => exact hr.error

theorem Straight.mapM {f : β → Except (Fault α) γ} {l : List β} (hf : ∀ b ∈ l, Straight (f b)) :
    Straight (l.mapM f) := by
  induction l with
  | nil => exact straight_ok []
  | cons b l ih =>
    rw [List.mapM_cons]
    have hrest := ih fun b' hb' => hf b' (List.mem_cons_of_mem _ hb')
    exact (hf b List.mem_cons_self).bind fun _ _ => hrest.bind fun _ _ => straight_ok _

end Straight

namespace View

variable {α : Type} [Scalar α] {v : View α}

/-- To look an entity up involves no walk. -/
theorem straight_settled (v : View α) (id : EntityId) : Straight (v.settled id) :=
  fun _ h => nomatch settled_eq_error h

theorem straight_state (v : View α) (id : EntityId) : Straight (v.state id) :=
  fun _ h => nomatch state_eq_error h

/-- Everything that is seen has a line of parents up to a root. -/
def Grounded (v : View α) : Prop := ∀ c s, v.state c = .ok s → ∃ chain, v.Lineage (some c) chain

namespace Grounded

variable (h : v.Grounded)
include h

/-- In a forest nobody is below themselves. -/
theorem not_below (id : EntityId) : ¬TransGen v.KnownLink id id := by
  intro hcycle
  have hcycle : TransGen v.ParentLink id id := hcycle.lift (fun c => c) fun _ _ hl => hl.2
  obtain ⟨_, ⟨s, hs, _⟩, _⟩ := TransGen.head'_iff.1 hcycle
  obtain ⟨chain, hchain⟩ := h id s hs
  exact hchain.not_below hcycle

theorem ancestors (id : EntityId) : Straight (v.ancestors id) := by
  cases hs : v.state id with
  | error f =>
    unfold View.ancestors
    exact (v.straight_state id).bind fun s hs' => by rw [hs] at hs'; cases hs'
  | ok s =>
    obtain ⟨chain, hchain⟩ := h id s hs
    cases hchain with
    | @link _ _ rest hs' hrest =>
      rw [(Lineage.link hs' hrest).ancestors_eq]
      exact straight_ok rest

theorem worldTransform (id : EntityId) : Straight (v.worldTransform id) := by
  unfold View.worldTransform
  refine (v.straight_state id).bind fun _ _ => (h.ancestors id).bind fun _ _ => ?_
  refine (Straight.mapM fun _ _ => v.straight_state _).bind fun _ _ => ?_
  dsimp only
  split
  · exact straight_ok _
  · exact fun _ hdegenerate => nomatch hdegenerate

theorem worldBounds (id : EntityId) (extended : Bool) : Straight (v.worldBounds id extended) := by
  unfold View.worldBounds
  refine (v.straight_state id).bind fun _ _ => ?_
  split
  · exact (h.worldTransform id).bind fun _ _ => straight_ok _
  · exact straight_ok _

theorem obstacle? (zone : Option EntityId) (extended : Bool) (target : EntityId) :
    Straight (v.obstacle? zone extended target) := by
  -- with or without a zone, the obstacle is placed by the same two calls
  have hplace : ∀ s : Surrogate α, Straight (v.worldTransform target >>= fun world =>
      pure (some { box := (s.bounds extended).transform world
                   mesh := s.scaledMesh.map (·.map world.point) } : Option (Obstacle α))) :=
    fun s => (h.worldTransform target).bind fun _ _ => straight_ok _
  unfold View.obstacle?
  refine (v.straight_state target).bind fun s _ => ?_
  split
  · exact straight_ok _
  · cases zone with
    | none => exact hplace s
    | some z =>
      refine (h.ancestors target).bind fun chain _ => ?_
      split
      · exact straight_ok _
      · exact hplace s

theorem hits (options : CollisionOptions α) (probes : List (Obb α)) (targets : List EntityId) :
    Straight (v.hits options probes targets) := by
  induction targets with
  | nil => exact straight_ok []
  | cons target rest ih =>
    unfold View.hits
    exact (h.obstacle? _ _ target).bind fun _ _ => ih.bind fun _ _ => straight_ok _

/-- The neighbours of an entity come to no cycle where everything is grounded. -/
theorem neighbours (id : EntityId) (options : CollisionOptions α) (withDescendants : Bool) :
    Straight (v.neighbours id options withDescendants) := by
  obtain ⟨below, hbelow, _⟩ := exists_descendants (h.not_below id)
  unfold View.neighbours
  rw [hbelow]
  refine (straight_ok below).bind fun _ _ => (h.ancestors id).bind fun _ _ => ?_
  refine (Straight.mapM fun t _ => h.worldBounds t _).bind fun _ _ => ?_
  exact (h.hits options _ _).bind fun _ _ => straight_ok _

end Grounded

/-! ## Views of a scene -/

variable {t : Scene α}

/-- A view that has settled what a scene has shows the links of that scene. -/
theorem parentLink_of_scene (hstate : ∀ c, v.state c = WorkingSet.orMissing (t.surrogate? c) c) :
    v.ParentLink = t.ParentLink := by
  funext c p
  refine propext ⟨?_, ?_⟩
  · rintro ⟨q, hq, hp⟩
    rw [hstate, WorkingSet.orMissing_eq_ok] at hq
    obtain ⟨e, he, rfl⟩ := Option.map_eq_some_iff.1 hq
    exact ⟨e, he, hp⟩
  · rintro ⟨e, he, hp⟩
    refine ⟨.ofEntity e, ?_, hp⟩
    rw [hstate, WorkingSet.orMissing_eq_ok, Scene.surrogate?, he]
    rfl

/-- Where a forest of entities is seen, with all parents there, everything is grounded. -/
theorem grounded_of_scene (hstate : ∀ c, v.state c = WorkingSet.orMissing (t.surrogate? c) c)
    (hlinks : t.LinkConsistent) (hacyclic : t.Acyclic) : v.Grounded := by
  -- parents come first: the induction goes down along the parent links
  intro c
  induction c using hacyclic.wellFounded.induction with
  | _ c ih =>
    intro q hq
    have hrest : ∃ chain, v.Lineage q.parent chain := by
      cases hp : q.parent with
      | none => exact ⟨[], .root⟩
      | some p =>
        have hlink : t.ParentLink c p := by
          rw [← parentLink_of_scene hstate]
          exact ⟨q, hq, hp⟩
        obtain ⟨e, he, _⟩ := hlinks.listed hlink
        refine ih p (.single hlink) (.ofEntity e) ?_
        rw [hstate, WorkingSet.orMissing_eq_ok, Scene.surrogate?, he]
        rfl
    obtain ⟨chain, hchain⟩ := hrest
    exact ⟨c :: chain, .link hq hchain⟩

end View

end SceneGuard
