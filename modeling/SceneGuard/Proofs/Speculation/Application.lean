import SceneGuard.Number.Binary
import SceneGuard.Proofs.Scene.Edits
import SceneGuard.Proofs.Speculation.Boxes

/-!
# Speculation and application

Surrogates laid over a scene show what the scene would be after the commands they came from
(`WorkingSet.Shows`). They show it boxes and all: the surrogate of an edited entity is built from
the entity, the edited surrogate carries the boxes it had, and that the two agree is the invariant
of stored boxes (`Surrogate.Fitted`). Main statements:

* `surrogate?_edit` — an accepted edit changes the surrogate of its own entity, in the way that
  `Surrogate.edit` says, and no other;
* `WorkingSet.Shows.speculate` — one command keeps the working set in step with the edited scene;
* `queries_speculateAll` — after a run of commands every query on the working set gives the answer
  that the edited scene gives.
-/

namespace SceneGuard

variable {α : Type}

/-- One edit, and no removal. -/
def Command.retains : Command α → Bool
  | .single _ e => !e.kind.isRemove
  | .composite .. => false

/-- A command retains entities if it is a single one and removes nothing. -/
theorem Command.retains_iff {c : Command α} :
    c.retains = true ↔ ∃ h e, c = .single h e ∧ e.kind.isRemove = false := by
  cases c <;> simp [retains]

/-- The kinds of command that place their entity. -/
def CommandKind.places : CommandKind → Bool
  | .add _ | .move | .rotate | .scale | .reparent => true
  | .remove _ | .changeProperty | .composite => false

namespace WorkingSet

/-- A look-up as a query answers it. -/
def orMissing (found : Option (Surrogate α)) (id : EntityId) : Except (Fault α) (Surrogate α) :=
  match found with
  | some s => .ok s
  | none => .error (.entityNotFound id)

theorem orMissing_eq_ok {found : Option (Surrogate α)} {id : EntityId} {s : Surrogate α} :
    orMissing found id = .ok s ↔ found = some s := by
  cases found <;> simp [orMissing]

end WorkingSet

variable [Scalar α]

/-!
## Surrogates of a scene

A surrogate holds what a query reads of an entity, which its list of children is not. So where an
edit rewrites no more than the list of an entity, the surrogate stays the same.
-/

namespace Surrogate

/-- The surrogate of an entity does not tell who is listed below it,
so one more makes no difference. -/
@[simp] theorem ofEntity_enlist (id : EntityId) (q : Entity α) :
    ofEntity (Scene.enlist id q) = ofEntity q := by
  unfold Scene.enlist
  split <;> rfl

@[simp] theorem ofEntity_delist (id : EntityId) (q : Entity α) :
    ofEntity (Scene.delist id q) = ofEntity q := rfl

@[simp] theorem ofEntity_adopt (id : EntityId) (children : List EntityId) (q : Entity α) :
    ofEntity (Scene.adopt id children q) = ofEntity q := rfl

/-- An edit leaves a surrogate at the number it has. -/
theorem edit_id {q s : Surrogate α} {e : Edit α} (hq : q.id = e.entityId) (h : q.edit e = some s) :
    s.id = e.entityId := by
  cases e <;> simp only [edit, Option.some.injEq, reduceCtorEq] at h <;> subst h <;>
    first | exact hq | rfl

/-- An edited surrogate is the surrogate of the edited entity if it is so but for its boxes. -/
theorem ofEntity_eq_edited {e : Edit α} {p q : Entity α} {s : Surrogate α}
    (h : (ofEntity q).edit e = some s) (hstate : (ofEntity p).rebuildBounds = s.rebuildBounds) :
    ofEntity p = s :=
  (fitted_ofEntity p).ext ((fitted_ofEntity q).edit h) hstate

end Surrogate

namespace Scene

variable {s t : Scene α}

/-- The entity at a number, as a surrogate. -/
def surrogate? (s : Scene α) (id : EntityId) : Option (Surrogate α) := (s.get? id).map .ofEntity

/-- In a scene where entities stand at their own numbers, so do their surrogates. -/
theorem Keyed.surrogate_id (h : s.Keyed) {id : EntityId} {q : Surrogate α}
    (hq : s.surrogate? id = some q) : q.id = id := by
  obtain ⟨e, he, rfl⟩ := Option.map_eq_some_iff.1 hq
  exact h id e he

/-- A change of an entity is seen in its surrogate, and in no other. -/
theorem surrogate?_modify (s : Scene α) (id x : EntityId) {f : Entity α → Entity α}
    {g : Surrogate α → Surrogate α} (hfg : ∀ q, Surrogate.ofEntity (f q) = g (.ofEntity q)) :
    (s.modify id f).surrogate? x = if x = id then (s.surrogate? id).map g else s.surrogate? x := by
  unfold surrogate?
  rw [get?_modify]
  split <;> simp [Option.map_map, Function.comp_def, hfg]

/-- An entity that is put in has the surrogate made of it. -/
theorem surrogate?_inserted (s : Scene α) (e : Entity α) (x : EntityId) :
    (s.inserted e).surrogate? x = if x = e.id then some (.ofEntity e) else s.surrogate? x := by
  unfold surrogate?
  rw [get?_inserted]
  split
  · rfl
  · split <;> simp [Option.map_map, Function.comp_def]

/-- To hang an entity elsewhere is seen in its surrogate only: lists are no part of surrogates. -/
theorem surrogate?_reparented (s : Scene α) (id x : EntityId) {e : Entity α} (target : Attachment α)
    (h : s.get? id = some e) :
    (s.reparented id e target).surrogate? x = (s.surrogate? x).map fun q =>
      if x = id then { q with parent := target.parent, position := target.position } else q := by
  unfold surrogate?
  rw [get?_reparented s id x e target h]
  cases s.get? x with
  | none => rfl
  | some q => simp only [Option.map_some]; split <;> split <;> (try split) <;> (try split) <;> rfl

/-!
## Edits

The edits other than removals are gone through once. Whatever the scene does for each of them, on
the side of surrogates it comes down to one change at one number.
-/

/-- What stands at the entity of an edit before the edit is made: for an add, the entity to be. -/
def base? (s : Scene α) : Edit α → Option (Surrogate α)
  | .add _ e => some (.ofEntity e)
  | e => s.surrogate? e.entityId

/-- The surrogate that an edit starts from is that of its entity. -/
theorem Keyed.base_id (h : s.Keyed) {e : Edit α} {q : Surrogate α} (hq : s.base? e = some q) :
    q.id = e.entityId := by
  cases e with
  | add role e => obtain rfl : Surrogate.ofEntity e = q := Option.some.inj hq; rfl
  | _ => exact h.surrogate_id hq

/--
An accepted edit other than a removal changes what stands at its own entity, as surrogates are
changed, and nothing else that a surrogate holds.
-/
theorem surrogate?_edit {e : Edit α} (hr : e.kind.isRemove = false) (h : s.edit e = .ok t) :
    ∃ q, s.base? e = some q ∧
      ∀ x, t.surrogate? x = if x = e.entityId then some ((q.edit e).getD q)
        else s.surrogate? x := by
  -- most edits change one entity in place, by an `f` that surrogates see as a `g`
  have hupdate : ∀ {id : EntityId} {f : Entity α → Entity α} {g : Surrogate α → Surrogate α},
      (∀ q, Surrogate.ofEntity (f q) = g (.ofEntity q)) → s.update id f = .ok t →
      ∃ q, s.surrogate? id = some q ∧
        ∀ x, t.surrogate? x = if x = id then some (g q) else s.surrogate? x := by
    intro id f g hfg hu
    obtain ⟨⟨q, hq⟩, rfl⟩ := update_eq_ok.1 hu
    have hs : s.surrogate? id = some (.ofEntity q) := by rw [surrogate?, hq]; rfl
    exact ⟨_, hs, fun x => by rw [surrogate?_modify s id x hfg, hs]; rfl⟩
  cases e with
  | add role e =>
    obtain ⟨_, _, rfl⟩ := insert_eq_ok.1 h
    exact ⟨_, rfl, fun x => surrogate?_inserted s e x⟩
  | remove => simp [Edit.kind, CommandKind.isRemove] at hr
  -- an edited surrogate has kept its boxes up, so it is enough to look at the rest of it
  | move id before after =>
    refine hupdate (g := fun q => { q with position := after }) (fun q => ?_) h
    exact Surrogate.ofEntity_eq_edited (e := .move id before after) (q := q) rfl rfl
  | rotate id before after =>
    refine hupdate (g := fun q => { q with rotation := after }) (fun q => ?_) h
    exact Surrogate.ofEntity_eq_edited (e := .rotate id before after) (q := q) rfl rfl
  | scale id before after =>
    refine hupdate (g := fun q => .rebuildBounds
      { q with position := after.position, scale := after.scale }) (fun q => ?_) h
    exact Surrogate.ofEntity_eq_edited (e := .scale id before after) (q := q) rfl rfl
  | changeProperty id key before after =>
    exact hupdate (f := fun q => q.setProperty key after) (g := fun q => q) (fun _ => rfl) h
  | reparent id before after =>
    obtain ⟨_, e, he, rfl⟩ := reparent_eq_ok.1 h
    have hs : s.surrogate? id = some (.ofEntity e) := by rw [surrogate?, he]; rfl
    refine ⟨_, hs, fun x => ?_⟩
    rw [surrogate?_reparented s id x after he]
    by_cases hx : x = id
    · subst hx
      simp only [hs, Option.map_some, if_true, Edit.entityId]
      rfl
    · simp [hx, Edit.entityId]

end Scene

/-! ## What an edit is tried on -/

namespace View

/-- What an edit is tried on: its entity as it is settled, and for an add the entity to be. -/
def ground (v : View α) : Edit α → Except (Fault α) (Surrogate α)
  | .add _ e => .ok (.ofEntity e)
  | e => v.settled e.entityId

/-- A single command is applied to the surrogate that it starts from. -/
theorem speculate_single (v : View α) (header : Header) (e : Edit α) :
    v.speculate (.single header e) = (v.ground e).map fun q => q.apply (.single header e) := by
  have htry :
      ∀ x : Except (Fault α) (Surrogate α), (x >>= fun q => pure (q.apply (.single header e))) =
      x.map fun q => q.apply (.single header e) := fun x => by cases x <;> rfl
  cases e with
  | add => rfl
  | _ => exact htry _

end View

/-!
## Working sets that show a scene

`Shows` is the invariant of speculation: what is seen through the working set is what the other
scene has. Of entities a query reads nothing else, and every accepted edit that removes nothing
keeps the two in step.
-/

namespace WorkingSet

variable {w : WorkingSet α} {scene after next : Scene α}

/-- What stands at a number when the working set is laid over a scene. -/
def shown (w : WorkingSet α) (scene : Scene α) (id : EntityId) : Option (Surrogate α) :=
  w.get? id <|> scene.surrogate? id

/-- What is put into the working set is shown, and the rest is shown as before. -/
theorem shown_add (w : WorkingSet α) (scene : Scene α) (s : Surrogate α) (id : EntityId) :
    (w.add s).shown scene id = if id = s.id then some s else w.shown scene id := by
  unfold shown
  rw [get?_add]
  split <;> rfl

/-- What a working set shows depends on its surrogates only. -/
theorem shown_congr {w w' : WorkingSet α} (h : ∀ id, w.get? id = w'.get? id) (scene : Scene α) :
    w.shown scene = w'.shown scene := by
  funext id
  unfold shown
  rw [h]

/-- What a query has settled is what the working set shows. -/
theorem settled_view (w : WorkingSet α) (scene : Scene α) (id : EntityId) :
    (w.view scene).settled id = orMissing (w.shown scene id) id := rfl

/-- What a command is tried on: what stands at its entity, and for an add the entity to be. -/
def base? (w : WorkingSet α) (scene : Scene α) : Edit α → Option (Surrogate α)
  | .add _ e => some (.ofEntity e)
  | e => w.shown scene e.entityId

/-- The surrogate for a single command is what the command makes of what is shown. -/
theorem surrogateFor_single (w : WorkingSet α) (scene : Scene α) (header : Header) (e : Edit α) :
    w.surrogateFor scene (.single header e) =
      (orMissing (w.base? scene e) e.entityId).map fun q => q.apply (.single header e) := by
  have hground : (w.view scene).ground e = orMissing (w.base? scene e) e.entityId := by
    cases e <;> rfl
  rw [← hground]
  exact View.speculate_single _ header e

/-- The working set laid over one scene shows the entities of another. -/
def Shows (w : WorkingSet α) (scene after : Scene α) : Prop :=
  ∀ id, w.shown scene id = after.surrogate? id

/-- A working set without surrogates. -/
def bare (epsilon : α) : WorkingSet α := { epsilon }

/-- In an empty working set there is nothing that could be out of date. -/
theorem fitted_bare (epsilon : α) : (bare epsilon).Fitted := nofun

/-- An empty working set shows the scene as it is. -/
theorem shows_self (epsilon : α) (scene : Scene α) :
    (bare epsilon).Shows scene scene := fun _ => rfl

/-- A query over a working set that shows a scene has settled what that scene has. -/
theorem Shows.settled (h : w.Shows scene after) (id : EntityId) :
    (w.view scene).settled id = orMissing (after.surrogate? id) id := by
  rw [settled_view, h id]

/-- An edit starts from the same surrogate in both. -/
theorem Shows.base? (h : w.Shows scene after) (e : Edit α) : w.base? scene e = after.base? e := by
  cases e with
  | add => rfl
  | _ => exact h _

/-- What shows a scene is fitted: it stands for entities, and their surrogates are. -/
theorem Shows.fitted (h : w.Shows scene after) : w.Fitted := by
  intro id s hs
  have hshown : w.shown scene id = some s := by
    unfold shown
    rw [hs]
    rfl
  rw [h id] at hshown
  obtain ⟨e, _, rfl⟩ := Option.map_eq_some_iff.1 hshown
  exact Surrogate.fitted_ofEntity e

/-- What the working set shows is all that queries see. -/
theorem Shows.agrees (h : w.Shows scene after) (hzone : after.activeZone = scene.activeZone) :
    (w.view scene).Agrees ((bare w.epsilon).view after) where
  useLeft := rfl
  useRight := rfl
  activeZone := hzone.symm
  epsilon := rfl
  state id := by
    have hleft : (w.view scene).state id = (w.view scene).settled id := rfl
    have hright : ((bare w.epsilon).view after).state id =
        ((bare w.epsilon).view after).settled id := rfl
    rw [hleft, hright, h.settled, (shows_self w.epsilon after).settled]

/-- Put the surrogate of a changed entity in, and the working set shows the changed scene. -/
theorem Shows.add (h : w.Shows scene after) (s : Surrogate α)
    (hnext : ∀ x, next.surrogate? x = if x = s.id then some s else after.surrogate? x) :
    (w.add s).Shows scene next := by
  intro id
  rw [shown_add, hnext, h id]

/-- So speculation goes along with an accepted edit that removes nothing. -/
theorem Shows.speculate (h : w.Shows scene after) (hkeyed : after.Keyed) {e : Edit α}
    (hr : e.kind.isRemove = false) (hedit : after.edit e = .ok next) (header : Header) :
    ∃ made, w.surrogateFor scene (.single header e) = .ok made ∧
      (w.addIfAny made).Shows scene next := by
  obtain ⟨q, hq, hnext⟩ := Scene.surrogate?_edit hr hedit
  have hqid := hkeyed.base_id hq
  refine ⟨q.edit e, ?_, ?_⟩
  · rw [surrogateFor_single, h.base?, hq]
    simp [orMissing, Except.map, Surrogate.apply, hqid]
  · cases hs : q.edit e with
    | none =>
      -- a property change leaves the entity's surrogate as it was
      intro id
      rw [hnext, hs]
      split
      · next hid =>
        have hbase : after.surrogate? e.entityId = some q := by
          cases e with
          | changeProperty => exact hq
          | _ => simp [Surrogate.edit] at hs
        rw [hid]
        exact (h e.entityId).trans hbase
      · exact h id
    | some s =>
      refine h.add s fun x => ?_
      rw [hnext, hs, Surrogate.edit_id hqid hs]
      rfl

/-- The working set after the surrogates of commands, each made over those before it. -/
def speculateAll (scene : Scene α) (w : WorkingSet α) :
    List (Command α) → Except (Fault α) (WorkingSet α)
  | [] => .ok w
  | c :: cs => do
    let made ← w.surrogateFor scene c
    speculateAll scene (w.addIfAny made) cs

/-- A run of commands keeps the working set in step with the edited scene. -/
theorem Shows.speculateAll {cs : List (Command α)} (h : w.Shows scene after) (hkeyed : after.Keyed)
    (hcs : ∀ c ∈ cs, c.retains = true) (happly : after.applyAll cs = (next, .ok ())) :
    ∃ w', speculateAll scene w cs = .ok w' ∧ w'.Shows scene next ∧ w'.epsilon = w.epsilon ∧
      next.Keyed ∧ next.activeZone = after.activeZone := by
  -- on the commands, with session and scene taking each together
  induction cs generalizing w after with
  | nil =>
    obtain rfl : after = next := by simpa [Scene.applyAll] using happly
    exact ⟨w, rfl, h, rfl, hkeyed, rfl⟩
  | cons c cs ih =>
    obtain ⟨header, e, rfl, hr⟩ := Command.retains_iff.1 (hcs c List.mem_cons_self)
    obtain ⟨m, hm, hrest⟩ := Scene.applyAll_cons_eq_ok.1 happly
    have hedit := Scene.apply_single_eq_ok.1 hm
    obtain ⟨made, hmade, hshows⟩ := h.speculate hkeyed hr hedit header
    obtain ⟨w', hw', hshows', hepsilon, hkeyed', hzone⟩ :=
      ih hshows (hkeyed.edit hedit) (fun c hc => hcs c (List.mem_cons_of_mem _ hc)) hrest
    refine ⟨w', ?_, hshows', by simpa using hepsilon, hkeyed',
      hzone.trans (Scene.activeZone_edit hr hedit)⟩
    simp [WorkingSet.speculateAll, hmade, bind, Except.bind, hw']

end WorkingSet

/-!
## Queries after a run

A working set without surrogates shows the scene, and each command of the run keeps the invariant.
The answers of queries are then read off it.
-/

/--
**Speculation equals application.** Commands that a scene accepts one after the other can be
speculated one after the other, from no surrogates on. The surrogates made are fitted, and queries
on the scene under them answer as they do on the edited scene by itself.
-/
theorem queries_speculateAll {scene after : Scene α} {cs : List (Command α)} (epsilon : α)
    (hkeyed : scene.Keyed) (hcs : ∀ c ∈ cs, c.retains = true)
    (happly : scene.applyAll cs = (after, .ok ())) :
    ∃ w, WorkingSet.speculateAll scene (.bare epsilon) cs = .ok w ∧ w.Fitted ∧
      (∀ id extended, w.worldBounds scene id extended =
        (WorkingSet.bare epsilon).worldBounds after id extended) ∧
      (∀ c extended, w.worldBoundsAfter scene c extended =
        (WorkingSet.bare epsilon).worldBoundsAfter after c extended) ∧
      ∀ c options withDescendants, options.useSurrogates = true →
        w.collide scene c options withDescendants =
          (WorkingSet.bare epsilon).collide after c options withDescendants := by
  obtain ⟨w, hw, hshows, hepsilon, _, hzone⟩ :=
    (WorkingSet.shows_self epsilon scene).speculateAll hkeyed hcs happly
  have hagrees := hshows.agrees hzone
  rw [hepsilon] at hagrees
  exact ⟨w, hw, hshows.fitted, fun id extended => hagrees.worldBounds id extended,
    fun c extended => WorkingSet.worldBoundsAfter_congr hagrees c extended,
    fun c _ withDescendants huse => WorkingSet.collide_congr hagrees c huse withDescendants⟩

/-- A table with a box on it, and a second table. -/
def tables : Scene Float :=
  { entities := .ofList [(1, { Entity.new 1 .model (.splat 1) with children := [2] }),
      (2, { Entity.new 2 .model (.splat 1) with parent := some 1 }),
      (3, Entity.new 3 .model (.splat 1))] }

/-- The box goes to the second table, which is moved and widened, and a lid is put on the box. -/
def rearrangement : List (Command Float) :=
  [.single { id := 1 } (.reparent 2 ⟨some 1, .splat 0⟩ ⟨some 3, .splat 0⟩),
    .single { id := 2 } (.move 3 (.splat 0) ⟨4, 0, 0⟩),
    .single { id := 4 } (.scale 3 ⟨⟨4, 0, 0⟩, .splat 1⟩ ⟨⟨4, 0, 0⟩, ⟨2, 1, 1⟩⟩),
    .single { id := 3 } (.add .entity { Entity.new 4 .model (.splat 1) with parent := some 2 })]

/-- What is widened under the surrogates has the boxes it would have in the edited scene. -/
theorem queries_speculateAll_rearrangement :
    ∃ w, WorkingSet.speculateAll tables (.bare 0) rearrangement = .ok w ∧ w.Fitted ∧
      (∀ id extended, w.worldBounds tables id extended =
        (WorkingSet.bare 0).worldBounds (tables.applyAll rearrangement).1 id extended) ∧
      (∀ c extended, w.worldBoundsAfter tables c extended =
        (WorkingSet.bare 0).worldBoundsAfter (tables.applyAll rearrangement).1 c extended) ∧
      ∀ c options withDescendants, options.useSurrogates = true →
        w.collide tables c options withDescendants =
          (WorkingSet.bare 0).collide (tables.applyAll rearrangement).1 c options withDescendants :=
  queries_speculateAll 0 (by decide)
    (by decide) (Prod.ext rfl (by rfl))

end SceneGuard
