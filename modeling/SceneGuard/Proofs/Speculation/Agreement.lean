import SceneGuard.Proofs.Speculation.Walks

/-!
# Views that agree

A query reads a view through the entities it sees, the active zone and the tolerance
(`View.Agrees`). Views that agree on these give the same walks, the same boxes and the same hits,
errors included, however the view is made up of surrogates, a candidate and live entities.
-/

namespace SceneGuard

namespace View

variable {α : Type} {v w : View α}

/-- The view with a candidate laid over it. -/
def trying (v : View α) (s : Surrogate α) : View α := { v with candidate := some s }

variable [Scalar α]

/-- Two views, both with surrogates in use, in which a query sees the same. -/
structure Agrees (v w : View α) : Prop where
  useLeft : v.useSurrogates = true
  useRight : w.useSurrogates = true
  state : ∀ id, v.state id = w.state id
  activeZone : v.scene.activeZone = w.scene.activeZone
  epsilon : v.working.epsilon = w.working.epsilon

namespace Agrees

/-- Numbers are known where something is seen, and they come in order. -/
theorem knownIds (h : v.Agrees w) : v.knownIds = w.knownIds :=
  v.pairwise_knownIds.eq_of_mem_iff w.pairwise_knownIds fun {x} => by
    rw [mem_knownIds h.useLeft, mem_knownIds h.useRight, h.state]

/-- Views that agree have the same ways up. -/
theorem ancestors (h : v.Agrees w) (id : EntityId) : v.ancestors id = w.ancestors id := by
  cases hs : v.state id with
  | error f =>
    unfold View.ancestors
    rw [← h.state, hs]
    rfl
  | ok s => exact ((climbs_ancestors hs).congr h.state).unique (climbs_ancestors (h.state id ▸ hs))

theorem links (h : v.Agrees w) : v.links = w.links := by
  have hstate : v.state = w.state := funext h.state
  unfold View.links
  rw [h.knownIds, hstate]

theorem descendants (h : v.Agrees w) (id : EntityId) : v.descendants id = w.descendants id := by
  obtain ⟨links, hlinks⟩ := v.exists_links
  exact (collects_descendants hlinks id).unique (collects_descendants (h.links ▸ hlinks) id)

/-- Views that agree place everything alike. -/
theorem worldTransform (h : v.Agrees w) (id : EntityId) :
    v.worldTransform id = w.worldTransform id := by
  have hstate : v.state = w.state := funext h.state
  unfold View.worldTransform
  rw [h.ancestors, hstate]

theorem worldBounds (h : v.Agrees w) (id : EntityId) (extended : Bool) :
    v.worldBounds id extended = w.worldBounds id extended := by
  unfold View.worldBounds
  rw [h.worldTransform, h.state]

/-- What may be in the way is the same in both. -/
theorem obstacle? (h : v.Agrees w) (zone : Option EntityId) (extended : Bool) (target : EntityId) :
    v.obstacle? zone extended target = w.obstacle? zone extended target := by
  unfold View.obstacle?
  rw [h.worldTransform, h.state, h.ancestors]

theorem hits (h : v.Agrees w) (options : CollisionOptions α) (probes : List (Obb α))
    (targets : List EntityId) : v.hits options probes targets = w.hits options probes targets := by
  induction targets with
  | nil => rfl
  | cons target rest ih =>
    unfold View.hits
    rw [ih, h.activeZone, h.epsilon, h.obstacle?]

end Agrees

/-!
## Trying a candidate

A query about a command puts the surrogate that the command makes in the place of its entity, and
then looks around. So two things are compared: what is tried, and what is seen beside it.
-/

/-- The candidate stands in place of its entity, and of no other. -/
theorem state_trying (v : View α) (s : Surrogate α) (x : EntityId) :
    (v.trying s).state x = if s.id = x then .ok s else v.settled x := rfl

namespace Agrees

/-- Without candidates, views that agree have settled the same. -/
theorem settled (h : v.Agrees w) (hv : v.candidate = none) (hw : w.candidate = none)
    (id : EntityId) : v.settled id = w.settled id := by
  simpa [View.state, hv, hw] using h.state id

/-- Views that agree still do when both try the same candidate. -/
theorem trying (h : v.Agrees w) (hv : v.candidate = none) (hw : w.candidate = none)
    (s : Surrogate α) : (v.trying s).Agrees (w.trying s) where
  useLeft := h.useLeft
  useRight := h.useRight
  activeZone := h.activeZone
  epsilon := h.epsilon
  state id := by
    have hsettled : (v.trying s).settled id = (w.trying s).settled id := h.settled hv hw id
    unfold View.state
    rw [hsettled]
    rfl

theorem speculate (h : v.Agrees w) (hv : v.candidate = none) (hw : w.candidate = none)
    (c : Command α) : v.speculate c = w.speculate c := by
  cases c with
  | composite => rfl
  | single header e =>
    cases e with
    | add => rfl
    | _ => exact congrArg (· >>= _) (h.settled hv hw _)

end Agrees

/-- The entities outside the family of `id` that it overlaps, or that something below it does. -/
def neighbours (v : View α) (id : EntityId) (options : CollisionOptions α)
    (withDescendants : Bool) : Except (Fault α) (Option (List EntityId)) := do
  let below ← v.descendants id
  let family := id :: (← v.ancestors id) ++ below
  let tested := if withDescendants then id :: below else [id]
  let probes ← tested.mapM fun t => v.worldBounds t options.extendEntity
  let targets := v.knownIds.filter fun t => !family.contains t
  let hits ← v.hits options (probes.filterMap (fun b => b)) targets
  return if hits.isEmpty then none else some hits

theorem Agrees.neighbours (h : v.Agrees w) (id : EntityId) (options : CollisionOptions α)
    (withDescendants : Bool) :
    v.neighbours id options withDescendants = w.neighbours id options withDescendants := by
  have hbounds : (fun t => v.worldBounds t options.extendEntity) =
      fun t => w.worldBounds t options.extendEntity := funext fun t => h.worldBounds t _
  have hhits : v.hits options = w.hits options := funext fun probes =>
    funext (h.hits options probes)
  unfold View.neighbours
  rw [h.descendants, h.ancestors, h.knownIds, hbounds, hhits]

end View

namespace WorkingSet

variable {α : Type} {w w' : WorkingSet α} {scene scene' : Scene α}

/-- The view that a collision query starts from. -/
def viewFor (w : WorkingSet α) (scene : Scene α) (options : CollisionOptions α) : View α :=
  { w.view scene with useSurrogates := options.useSurrogates }

/-- A query that uses surrogates sees the working set laid over the scene. -/
theorem viewFor_of_uses (w : WorkingSet α) (scene : Scene α) {options : CollisionOptions α}
    (huse : options.useSurrogates = true) : w.viewFor scene options = w.view scene := by
  unfold viewFor
  rw [huse]
  rfl

variable [Scalar α]

/-- The surrogate a command makes is the same over views that agree. -/
theorem surrogateFor_congr (h : (w.view scene).Agrees (w'.view scene')) (c : Command α) :
    w.surrogateFor scene c = w'.surrogateFor scene' c :=
  h.speculate rfl rfl c

theorem worldBoundsAfter_congr (h : (w.view scene).Agrees (w'.view scene')) (c : Command α)
    (extended : Bool) :
    w.worldBoundsAfter scene c extended = w'.worldBoundsAfter scene' c extended := by
  unfold worldBoundsAfter
  rw [surrogateFor_congr h c]
  cases w'.surrogateFor scene' c with
  | error f => rfl
  | ok found =>
    cases found with
    | none => rfl
    | some s => exact (h.trying rfl rfl s).worldBounds s.id extended

/-- In a collision query the candidate is tried, and its neighbours are the hits. -/
theorem collide_viewFor (w : WorkingSet α) (scene : Scene α) (c : Command α)
    (options : CollisionOptions α) (withDescendants : Bool) :
    w.collide scene c options withDescendants =
      if c.kind.isRemove then .ok none
      else ((w.viewFor scene options).speculate c).bind fun found =>
        match found with
        | none => .ok none
        | some s =>
          if s.kind = .zone || !s.enabled then .ok none
          else ((w.viewFor scene options).trying s).neighbours s.id options withDescendants :=
  rfl

/-- What a query finds at a number, without a candidate, is a surrogate or a live entity. -/
theorem found_of_settled {options : CollisionOptions α} {id : EntityId} {s : Surrogate α}
    (h : (w.viewFor scene options).settled id = .ok s) :
    w.get? id = some s ∨ ∃ e, scene.get? id = some e ∧ .ofEntity e = s := by
  revert h
  unfold View.settled viewFor view
  dsimp only
  cases w.get? id <;> cases scene.get? id <;> cases options.useSurrogates <;> simp +contextual

/-- A collision query with surrogates in use starts from the view of rules. -/
theorem collide_eq (w : WorkingSet α) (scene : Scene α) (c : Command α)
    {options : CollisionOptions α} (huse : options.useSurrogates = true) (withDescendants : Bool) :
    w.collide scene c options withDescendants =
      if c.kind.isRemove then .ok none
      else (w.surrogateFor scene c).bind fun found =>
        match found with
        | none => .ok none
        | some s =>
          if s.kind = .zone || !s.enabled then .ok none
          else ((w.view scene).trying s).neighbours s.id options withDescendants := by
  rw [collide_viewFor, viewFor_of_uses w scene huse]
  rfl

/-- A collision query about what can collide asks for its neighbours where the command puts it. -/
theorem collide_of_speculate {scene : Scene α} {c : Command α} {options : CollisionOptions α}
    {s : Surrogate α} (hremove : c.kind.isRemove = false)
    (hmade : (w.viewFor scene options).speculate c = .ok (some s)) (hkind : s.kind ≠ .zone)
    (henabled : s.enabled = true) (withDescendants : Bool) :
    w.collide scene c options withDescendants =
      ((w.viewFor scene options).trying s).neighbours s.id options withDescendants := by
  rw [collide_viewFor, hremove, hmade]
  simp only [Bool.false_eq_true, if_false, Except.bind, hkind, henabled, decide_false,
    Bool.not_true, Bool.or_self]

theorem collide_of_surrogateFor {scene : Scene α} {c : Command α} {options : CollisionOptions α}
    {s : Surrogate α} (huse : options.useSurrogates = true) (hremove : c.kind.isRemove = false)
    (hmade : w.surrogateFor scene c = .ok (some s)) (hkind : s.kind ≠ .zone)
    (henabled : s.enabled = true) (withDescendants : Bool) :
    w.collide scene c options withDescendants =
      ((w.view scene).trying s).neighbours s.id options withDescendants := by
  have hview := viewFor_of_uses w scene huse
  rw [← hview]
  exact collide_of_speculate hremove (by rw [hview]; exact hmade) hkind henabled withDescendants

theorem collide_congr (h : (w.view scene).Agrees (w'.view scene')) (c : Command α)
    {options : CollisionOptions α} (huse : options.useSurrogates = true) (withDescendants : Bool) :
    w.collide scene c options withDescendants = w'.collide scene' c options withDescendants := by
  rw [collide_eq w scene c huse, collide_eq w' scene' c huse, surrogateFor_congr h c]
  have htry : ∀ s, ((w.view scene).trying s).neighbours s.id options withDescendants =
      ((w'.view scene').trying s).neighbours s.id options withDescendants :=
    fun s => (h.trying rfl rfl s).neighbours s.id options withDescendants
  simp only [htry]

end WorkingSet

end SceneGuard
