import SceneGuard.Proofs.Pass.Execution

/-!
# The hierarchy that a cascade follows

`cascade_remove` goes by the lists of children in the live scene, while what the commands before a
removal do to the hierarchy is recorded in surrogates, as parents. So the rule has those entities
removed and disabled that are below the removed one in the live scene, and these are the ones below
it in the working set as long as nothing was put there or taken away (`Edit.SparesBelow`). Main
statements:

* `shown_speculateAll` — what live entities have and every edit keeps, every surrogate made has;
* `transGen_iff_of_links` — where the links agree below an entity, the same is below it;
* `Rule.cascadeRemove_hierarchy` — which removals the rule issues, and what it disables.
-/

namespace SceneGuard

open Relation

variable {α μ : Type}

/-!
## Surrogates of a run of commands

What live entities have and every edit keeps is found in whatever is shown after the commands. There
are two properties for which this is used, `Surrogate.Stands` and `Surrogate.Follows`.
-/

/-- What an edit keeps of its entity, and what an entity that it adds has. -/
structure Edit.Keeps [Scalar α] (P : EntityId → Surrogate α → Prop) (e : Edit α) : Prop where
  added : ∀ a, e.adds? = some a → P a.id (.ofEntity a)
  edited : ∀ q s, P e.entityId q → q.edit e = some s → P e.entityId s

namespace WorkingSet

variable [Scalar α] {w w' : WorkingSet α} {scene : Scene α} {P : EntityId → Surrogate α → Prop}

/-- A view without a candidate shows what the working set does. -/
theorem state_view {x : EntityId} {q : Surrogate α} :
    (w.view scene).state x = .ok q ↔ w.shown scene x = some q := by
  show (w.view scene).settled x = .ok q ↔ _
  rw [settled_view, orMissing_eq_ok]

/-- At a live entity something is shown: its surrogate, or the entity itself. -/
theorem shown_of_get? (w : WorkingSet α) {x : EntityId} {e : Entity α}
    (he : scene.get? x = some e) : w.shown scene x = some ((w.get? x).getD (.ofEntity e)) := by
  unfold shown Scene.surrogate?
  rw [he]
  cases w.get? x <;> rfl

/-- What holds of the surrogates shown holds still when an edit that keeps it has its effect. -/
theorem shown_surrogateFor (hid : ∀ x s, P x s → s.id = x)
    (h : ∀ x s, w.shown scene x = some s → P x s) {header : Header} {e : Edit α} (he : e.Keeps P)
    {made : Option (Surrogate α)} (hmade : w.surrogateFor scene (.single header e) = .ok made) :
    ∀ x s, (w.addIfAny made).shown scene x = some s → P x s := by
  cases made with
  | none => exact h
  | some made =>
    rw [surrogateFor_single] at hmade
    cases hbase : w.base? scene e with
    | none => rw [hbase] at hmade; cases hmade
    | some q =>
      -- an edit starts from what is shown or from what it adds, and `P` holds of either
      have hq : P e.entityId q := by
        cases e with
        | add role a => exact Option.some.inj hbase ▸ he.added a rfl
        | _ => exact h _ _ hbase
      rw [hbase] at hmade
      have happly : q.apply (.single header e) = some made := Except.ok.inj hmade
      rw [Surrogate.apply, if_pos (hid _ _ hq).symm] at happly
      have hnew := he.edited q made hq happly
      intro x s hs
      rw [addIfAny, shown_add] at hs
      split at hs
      · next hx =>
        obtain rfl := Option.some.inj hs
        rwa [hx, hid _ _ hnew]
      · exact h x s hs

theorem shown_of_run {cs : List (Command α)} (hid : ∀ x s, P x s → s.id = x)
    (h : ∀ x s, w.shown scene x = some s → P x s)
    (hcs : ∀ c ∈ cs, ∃ header e, c = .single header e ∧ e.Keeps P)
    (hw : speculateAll scene w cs = .ok w') : ∀ x s, w'.shown scene x = some s → P x s := by
  induction cs generalizing w with
  | nil =>
    obtain rfl : w = w' := pure_eq_ok.1 hw
    exact h
  | cons c cs ih =>
    obtain ⟨header, e, rfl, he⟩ := hcs c List.mem_cons_self
    obtain ⟨made, hmade, hw⟩ := bind_eq_ok.1 hw
    exact ih (shown_surrogateFor hid h he hmade) (fun c hc => hcs c (List.mem_cons_of_mem _ hc)) hw

/-- What live entities have and every edit keeps,
holds of what the working set shows after the commands. -/
theorem shown_speculateAll {epsilon : α} {cs : List (Command α)} (hid : ∀ x s, P x s → s.id = x)
    (hlive : ∀ x e, scene.get? x = some e → P x (.ofEntity e)) (hcs : ∀ c ∈ cs, c.retains = true)
    (hkeeps : ∀ c ∈ cs, ∀ b ∈ c.edits, b.kind.isRemove = false → b.Keeps P)
    (hw : speculateAll scene (.bare epsilon) cs = .ok w) :
    ∀ x s, w.shown scene x = some s → P x s := by
  refine shown_of_run hid (fun x s hs => ?_) (fun c hc => ?_) hw
  · obtain ⟨e, he, rfl⟩ := Option.map_eq_some_iff.1 ((shows_self epsilon scene x).symm.trans hs)
    exact hlive x e he
  · obtain ⟨header, b, rfl, hr⟩ := Command.retains_iff.1 (hcs c hc)
    exact ⟨header, b, rfl, hkeeps _ hc b (by simp) hr⟩

end WorkingSet

/-- The entity stands at its number, and is not removed. -/
def Surrogate.Stands (x : EntityId) (s : Surrogate α) : Prop := s.id = x ∧ s.enabled = true

/-- At and below the entity `id`, the one at `x` has the parent that it has in the live scene. -/
def Surrogate.Follows (scene : Scene α) (id x : EntityId) (s : Surrogate α) : Prop :=
  s.id = x ∧ ∀ p, scene.Within p id → (s.parent = some p ↔ scene.ParentLink x p)

namespace Edit

variable [Scalar α]

/-- An edit that removes nothing leaves its entity standing at its number. -/
theorem keeps_stands {e : Edit α} (hr : e.kind.isRemove = false) : e.Keeps Surrogate.Stands where
  added a _ := ⟨rfl, rfl⟩
  edited q s hq hs := by
    cases e <;> simp only [Surrogate.edit, Option.some.injEq, reduceCtorEq] at hs
    case remove => cases hr
    all_goals subst hs
    case add => exact ⟨rfl, rfl⟩
    all_goals exact hq

/-- Nothing is put at or below the entity by the edit, and nothing that is there is taken away. -/
def SparesBelow (scene : Scene α) (id : EntityId) (e : Edit α) : Prop :=
  e.stays = true ∨ ∀ p, scene.Within p id → (e.parent? = some p ↔ scene.ParentLink e.entityId p)

/-- An edit that spares what is below an entity leaves the links there as they are live. -/
theorem keeps_follows {scene : Scene α} {id : EntityId} {e : Edit α} (h : e.SparesBelow scene id) :
    e.Keeps (Surrogate.Follows scene id) where
  added a ha := by
    cases e <;> simp only [adds?, Option.some.injEq, reduceCtorEq] at ha
    subst ha
    exact ⟨rfl, h.resolve_left (by simp [stays])⟩
  edited q s hq hs := by
    cases e <;> simp only [Surrogate.edit, Option.some.injEq, reduceCtorEq] at hs <;> subst hs
    case add => exact ⟨rfl, h.resolve_left (by simp [stays])⟩
    case reparent => exact ⟨hq.1, h.resolve_left (by simp [stays])⟩
    all_goals exact hq

end Edit

/-! ## What is below an entity -/

/-- Two relations that agree on what leads to `id`, and on to what leads there,
have the same lead to `id`. -/
theorem transGen_iff_of_links {R S : EntityId → EntityId → Prop} {id : EntityId}
    (h : ∀ x p, p = id ∨ TransGen S p id → (R x p ↔ S x p)) {x : EntityId} :
    TransGen R x id ↔ TransGen S x id := by
  constructor <;> intro hx
  · induction hx using TransGen.head_induction_on with
    | single hl => exact .single ((h _ _ (.inl rfl)).1 hl)
    | head hl _ ih => exact .head ((h _ _ (.inr ih)).1 hl) ih
  · induction hx using TransGen.head_induction_on with
    | single hl => exact .single ((h _ _ (.inl rfl)).2 hl)
    | head hl hbelow ih => exact .head ((h _ _ (.inr hbelow)).2 hl) ih

theorem Command.Removes.unique {c : Command α} {x y : EntityId} (hx : c.Removes x)
    (hy : c.Removes y) : x = y := by
  obtain ⟨_, _, rfl, _⟩ := hx
  obtain ⟨_, _, hc, _⟩ := hy
  cases hc
  rfl

instance (id : EntityId) (c : Command α) : Decidable (c.Removes id) :=
  match c with
  | .single h (.remove role x) =>
    decidable_of_iff (x = id ∧ h.forced = false)
      ⟨fun ⟨hx, hh⟩ => ⟨h, role, hx ▸ rfl, hh⟩, fun ⟨_, _, hc, hh⟩ => by cases hc; exact ⟨rfl, hh⟩⟩
  | .single _ (.add ..) | .single _ (.move ..) | .single _ (.rotate ..) | .single _ (.scale ..)
  | .single _ (.reparent ..) | .single _ (.changeProperty ..) | .composite .. =>
    isFalse fun ⟨_, _, hc, _⟩ => by cases hc

/-- The commands of which each removes one of the entities remove these and no others. -/
theorem exists_removes_iff {l : List EntityId} {cs : List (Command α)}
    (h : List.Forall₂ Command.Removes l cs) {x : EntityId} : (∃ c ∈ cs, c.Removes x) ↔ x ∈ l := by
  constructor
  · rintro ⟨c, hc, hx⟩
    obtain ⟨y, hy, hcy⟩ := exists_of_mem_forall₂ h hc
    exact hx.unique hcy ▸ hy
  · exact exists_of_mem_forall₂ h.flip

variable [Scalar α]

/-- Where nothing is disabled yet, everything below an entity is, as it is shown. -/
theorem mem_disabling_below {scene : Scene α} {w : WorkingSet α} {id : EntityId}
    {below : List (EntityId × Entity α)}
    (hstands : ∀ x s, w.shown scene x = some s → Surrogate.Stands x s)
    (hbelow : ∀ y, y ∈ below ↔ scene.get? y.1 = some y.2 ∧ scene.Below y.1 id) {s : Surrogate α} :
    s ∈ Rule.disabling w below ↔ ∃ x q, scene.Below x id ∧ w.shown scene x = some q ∧
      s = q.disabled := by
  rw [Rule.mem_disabling]
  constructor
  · rintro ⟨y, hy, _, rfl⟩
    obtain ⟨hget, hy⟩ := (hbelow y).1 hy
    exact ⟨y.1, _, hy, w.shown_of_get? hget, rfl⟩
  · rintro ⟨x, q, hx, hq, rfl⟩
    obtain ⟨p, ⟨e, hget, _⟩, _⟩ := TransGen.head'_iff.1 hx
    obtain rfl := Option.some.inj ((w.shown_of_get? hget).symm.trans hq)
    exact ⟨(x, e), (hbelow (x, e)).2 ⟨hget, hx⟩, (hstands x _ hq).2, rfl⟩

namespace Rule

/--
**What goes with a removed entity.** After commands that remove nothing, the rule issues removals
for exactly the live children of a removed entity and disables exactly what is below it in the live
scene. Where none of the commands put anything at or below the entity or took anything away from
there, these are the entities whose parent it is in the working set laid over the scene, and
everything below it there.
-/
theorem cascadeRemove_hierarchy {scene : Scene α} (hscene : scene.LinkConsistent)
    (hacyclic : scene.Acyclic) {epsilon : α} {cs : List (Command α)} {w : WorkingSet α}
    (hcs : ∀ c ∈ cs, c.retains = true)
    (hw : WorkingSet.speculateAll scene (.bare epsilon) cs = .ok w) {id : EntityId} {e : Entity α}
    (he : scene.get? id = some e) (config : Config α) (ids : IdSource) (memory : μ)
    (header : Header) (role : Role) (v : Verdict α) :
    ∃ issued staged ids',
      cascadeRemove.process ⟨scene, w, config⟩ ids memory (.single header (.remove role id)) v =
        { command := .single header (.remove role id), verdict := .ok v, staged, issued,
          ids := ids', memory } ∧
      (∀ c ∈ issued, ∃ x, c.Removes x) ∧
      (∀ s ∈ staged, ∃ q, (w.view scene).state s.id = .ok q ∧ s = q.disabled) ∧
      (∀ x, (∃ c ∈ issued, c.Removes x) ↔ scene.ParentLink x id) ∧
      (∀ x, (∃ s ∈ staged, s.id = x) ↔ scene.Below x id) ∧
      ((∀ c ∈ cs, ∀ b ∈ c.edits, b.SparesBelow scene id) → ∀ x,
        ((∃ c ∈ issued, c.Removes x) ↔
          ∃ q, (w.view scene).state x = .ok q ∧ q.enabled = true ∧ q.parent = some id) ∧
        ((∃ s ∈ staged, s.id = x) ↔
          (∃ q, (w.view scene).state x = .ok q ∧ q.enabled = true) ∧
            TransGen (w.view scene).ParentLink x id)) := by
  obtain ⟨issued, below, ids', hanswer, hissued, _, hbelow⟩ := cascadeRemove_of_live
    ⟨scene, w, config⟩ hscene.linksAgree hacyclic ids memory header role he v
  -- what the working set shows for an id stands for that id and is enabled: kept by every edit
  have hstands : ∀ x s, w.shown scene x = some s → Surrogate.Stands x s :=
    WorkingSet.shown_speculateAll (fun _ _ h => h.1) (fun x e he => ⟨hscene.keyed x e he, rfl⟩) hcs
      (fun _ _ _ _ hr => Edit.keeps_stands hr) hw
  have hremoved : ∀ x, (∃ c ∈ issued, c.Removes x) ↔ scene.ParentLink x id := fun x => by
    rw [exists_removes_iff hissued, hscene.linksAgree.mem_listed, Scene.skeleton_link]
  have hdisabled : ∀ x, (∃ s ∈ disabling w below, s.id = x) ↔ scene.Below x id := fun x => by
    simp only [mem_disabling_below hstands hbelow]
    constructor
    · rintro ⟨_, ⟨y, q, hy, hq, rfl⟩, rfl⟩
      exact (hstands y q hq).1 ▸ hy
    · intro hx
      obtain ⟨p, ⟨e, hget, _⟩, _⟩ := TransGen.head'_iff.1 hx
      have hq := w.shown_of_get? hget
      exact ⟨_, ⟨x, _, hx, hq, rfl⟩, (hstands x _ hq).1⟩
  refine ⟨issued, disabling w below, ids', hanswer, fun c hc => ?_, fun s hs => ?_,
    hremoved, hdisabled, fun hspared x => ?_⟩
  · obtain ⟨x, _, hx⟩ := exists_of_mem_forall₂ hissued hc
    exact ⟨x, hx⟩
  · obtain ⟨x, q, _, hq, rfl⟩ := (mem_disabling_below hstands hbelow).1 hs
    exact ⟨q, WorkingSet.state_view.2 ((hstands x q hq).1.symm ▸ hq), rfl⟩
  · -- at and below the entity, the working set has the links of the live scene
    have hfollows : ∀ x s, w.shown scene x = some s → Surrogate.Follows scene id x s := by
      refine WorkingSet.shown_speculateAll (fun _ _ h => h.1)
        (fun x e he => ⟨hscene.keyed x e he, fun p _ => ?_⟩)
        hcs (fun c hc b hb _ => Edit.keeps_follows (hspared c hc b hb)) hw
      refine ⟨fun hp => ⟨e, he, hp⟩, fun ⟨e', he', hp⟩ => ?_⟩
      obtain rfl : e = e' := Option.some.inj (he.symm.trans he')
      exact hp
    -- so the walk in the view and the walk in the scene follow the same links
    have hlinks : ∀ x p, scene.Within p id →
        ((w.view scene).ParentLink x p ↔ scene.ParentLink x p) := by
      intro x p hp
      constructor
      · rintro ⟨q, hq, hparent⟩
        exact ((hfollows x q (WorkingSet.state_view.1 hq)).2 p hp).1 hparent
      · rintro ⟨e, hget, hparent⟩
        have hq := w.shown_of_get? hget
        exact ⟨_, WorkingSet.state_view.2 hq, ((hfollows x _ hq).2 p hp).2 ⟨e, hget, hparent⟩⟩
    have henabled : ∀ {q}, (w.view scene).state x = .ok q → q.enabled = true := fun hq =>
      (hstands x _ (WorkingSet.state_view.1 hq)).2
    rw [hremoved, hdisabled, ← hlinks x id (.inl rfl)]
    refine ⟨?_, ?_⟩
    · exact exists_congr fun q => ⟨fun h => ⟨h.1, henabled h.1, h.2⟩, fun h => ⟨h.1, h.2.2⟩⟩
    · rw [show scene.Below x id ↔ _ from (transGen_iff_of_links hlinks).symm]
      refine ⟨fun h => ⟨?_, h⟩, And.right⟩
      obtain ⟨p, ⟨q, hq, _⟩, _⟩ := TransGen.head'_iff.1 h
      exact ⟨q, hq, henabled hq⟩

/-- The box is moved, and another one is put on the second table. -/
def delivery : List (Command Float) :=
  [.single { id := 1 } (.move 2 (.splat 0) ⟨4, 0, 0⟩),
    .single { id := 2 } (.add .entity { Entity.new 4 .model (.splat 1) with parent := some 3 })]

/-- The delivery leaves alone what stands on the first table. -/
theorem sparesBelow_delivery : ∀ c ∈ delivery, ∀ b ∈ c.edits, b.SparesBelow tables 1 := by
  -- 3 has no parent, so it is not below 1
  have htop : ¬tables.Within 3 1 := by
    rintro (h | h)
    · cases h
    · obtain ⟨_, ⟨e, he, hp⟩, _⟩ := TransGen.head'_iff.1 h
      cases he
      cases hp
  have hnew : ∀ p, ¬tables.ParentLink 4 p := fun p ⟨e, he, _⟩ => by cases he
  refine List.forall_mem_cons.2 ⟨fun b hb => ?_, List.forall_mem_singleton.2 fun b hb => ?_⟩
  · obtain rfl := List.mem_singleton.1 hb
    exact .inl rfl
  · obtain rfl := List.mem_singleton.1 hb
    refine .inr fun p hp => ⟨fun h => ?_, fun h => absurd h (hnew p)⟩
    obtain rfl : 3 = p := Option.some.inj h
    exact absurd hp htop

/-- So with the first table goes what stands on it, live and in the working set. -/
theorem cascadeRemove_hierarchy_delivery : ∃ w issued staged ids',
    WorkingSet.speculateAll tables (.bare 0) delivery = .ok w ∧
    (Rule.cascadeRemove : Rule Float Unit).process ⟨tables, w, .standard⟩ {} ()
        (.single { id := 3 } (.remove .entity 1)) .approval =
      { command := .single { id := 3 } (.remove .entity 1), verdict := .ok .approval,
        staged, issued, ids := ids', memory := () } ∧
    (∃ c ∈ issued, c.Removes 2) ∧
    ∀ x, ((∃ c ∈ issued, c.Removes x) ↔
        ∃ q, (w.view tables).state x = .ok q ∧ q.enabled = true ∧ q.parent = some 1) ∧
      ((∃ s ∈ staged, s.id = x) ↔
        (∃ q, (w.view tables).state x = .ok q ∧ q.enabled = true) ∧
          TransGen (w.view tables).ParentLink x 1) := by
  obtain ⟨w, hw, _⟩ := (WorkingSet.shows_self 0 tables).speculateAll (by decide) (by decide)
    (Prod.ext rfl (by rfl) : tables.applyAll delivery = ((tables.applyAll delivery).1, .ok ()))
  have hacyclic : tables.Acyclic :=
    Scene.acyclic_of_rank (show tables.falls UInt64.toNat = true by decide)
  have htable : tables.get? 1 = some { Entity.new 1 .model (.splat 1) with children := [2] } := by
    rfl
  obtain ⟨issued, staged, ids', hanswer, _, _, hremoved, _, hshown⟩ :=
    cascadeRemove_hierarchy (by decide) hacyclic (by decide) hw htable .standard {} () { id := 3 }
      .entity .approval
  exact ⟨w, issued, staged, ids', hw, hanswer, (hremoved 2).2 ⟨_, rfl, rfl⟩,
    hshown sparesBelow_delivery⟩

/-- The box is taken off the table, and then the table is removed. -/
def takenOff : Command Float :=
  .composite { id := 1 } "take off"
    [.single { id := 2 } (.reparent 2 ⟨some 1, .splat 0⟩ ⟨none, ⟨9, 0, 0⟩⟩),
      .single { id := 3 } (.remove .entity 1)]

open Validator (plain) in
/-- The box has no parent any more as the working set has it,
and its removal is issued all the same. -/
theorem not_cascadeRemove_hierarchy : ∃ (p : Pass Float Unit) (c : Command Float),
    tables.LinkConsistent ∧ tables.Acyclic ∧
    (plain true).Reaches tables takenOff ((plain true).start .fresh {} () takenOff) p ∧
    p.failed = false ∧ p.history.map (·.given.kind) = [.reparent] ∧
    p.session.queues.pending.head? = some c ∧ c.Removes 1 ∧ c.header.dying = false ∧
    (∃ d ∈ ((plain true).turn tables p c).issued, d.Removes 2) ∧
    ∃ q, (p.session.working.view tables).state 2 = .ok q ∧ q.parent = none := by
  have hrun :
      (((plain true).step? tables takenOff ((plain true).start .fresh {} () takenOff)).any fun p =>
      (!p.failed && p.history.map (·.given.kind) == [.reparent]) &&
        (p.session.queues.pending.head?.any fun c => decide (c.Removes 1) && !c.header.dying &&
          ((plain true).turn tables p c).issued.any fun d => decide (d.Removes 2)) &&
        (p.session.working.shown tables 2).any (·.parent.isNone)) = true := by decide +kernel
  obtain ⟨p, hstep, hfacts⟩ := (Option.any_eq_true _ _).1 hrun
  simp only [Bool.and_eq_true, Option.any_eq_true, List.any_eq_true, decide_eq_true_eq,
    Bool.not_eq_true', beq_iff_eq, Option.isNone_iff_eq_none] at hfacts
  obtain ⟨⟨⟨hfailed, hhistory⟩, c, hnext, ⟨hremoves, hdying⟩, hissued⟩, q, hq, hparent⟩ := hfacts
  have hacyclic : tables.Acyclic :=
    Scene.acyclic_of_rank (show tables.falls UInt64.toNat = true by decide)
  exact ⟨p, c, by decide, hacyclic, .step .refl hstep, hfailed, hhistory, hnext, hremoves,
    hdying, hissued, q, WorkingSet.state_view.2 hq, hparent⟩

end Rule

end SceneGuard
