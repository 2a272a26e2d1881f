import SceneGuard.Proofs.Results
import SceneGuard.Proofs.Speculation.Walks

/-!
# Placements

Where an entity stands in the world follows from where its parent stands (`View.Placed`). Main
statements:

* `worldTransform_eq_ok` — the placement that a query computes, root first, is that one;
* `worldBounds_eq_ok` — a placed box is the shape of the entity at that placement;
* `Placed.not_below` — what is placed is not above itself;
* `Placed.of_avoiding`, `Placed.exists_after` — when one entity changes, nothing moves whose way up
  misses it, and everything stays placed.
-/

namespace SceneGuard

namespace View

variable {α : Type} [Scalar α] {v w : View α} {x : EntityId}

/-!
## Links when one entity changes

A change of one entity may give that entity another parent, and leaves the links of all others. So a
way up that misses the entity is a way up before and after.
-/

/-- A view that differs at one entity has the same links everywhere else. -/
theorem parentLink_of_ne (hother : ∀ c, c ≠ x → w.state c = v.state c) {p : EntityId} (hc : c ≠ x) :
    w.ParentLink c p ↔ v.ParentLink c p := by
  unfold ParentLink
  rw [hother c hc]

theorem reach_of_reach (hother : ∀ c, c ≠ x → w.state c = v.state c)
    (h : Relation.ReflTransGen w.ParentLink c x) : Relation.ReflTransGen v.ParentLink c x := by
  induction h using Relation.ReflTransGen.head_induction_on with
  | refl => exact .refl
  | @head a b hab _ ih =>
    by_cases ha : a = x
    · exact ha ▸ .refl
    · exact .head ((parentLink_of_ne hother ha).1 hab) ih

/-- What was above an entity still is, unless the way up led through the one that changed. -/
theorem below_or_through (hother : ∀ c, c ≠ x → w.state c = v.state c) {a b : EntityId}
    (h : Relation.TransGen v.ParentLink a b) : Relation.TransGen w.ParentLink a b ∨
      Relation.ReflTransGen w.ParentLink a x ∧ Relation.ReflTransGen v.ParentLink x b := by
  -- from below: the way is the old one until it comes to `x`
  induction h using Relation.TransGen.head_induction_on with
  | @single a hab =>
    by_cases ha : a = x
    · exact .inr ⟨ha ▸ .refl, ha ▸ .single hab⟩
    · exact .inl (.single ((parentLink_of_ne hother ha).2 hab))
  | @head a c hac hcb ih =>
    by_cases ha : a = x
    · exact .inr ⟨ha ▸ .refl, ha ▸ hcb.to_reflTransGen.head hac⟩
    · have hac' := (parentLink_of_ne hother ha).2 hac
      rcases ih with hbelow | ⟨hreach, hrest⟩
      · exact .inl (hbelow.head hac')
      · exact .inr ⟨hreach.head hac', hrest⟩

/-!
## Placed entities

To be placed is to have a way up to a root over entities that are seen. Parents are unique, and so
is the placement.
-/

variable {cur : Option EntityId} {c : EntityId} {s : Surrogate α} {t t' : Transform α}

/-- Where a parent stands in the world; what has none stands in the world itself. -/
inductive Placed (v : View α) : Option EntityId → Transform α → Prop where
  | root : Placed v none .identity
  | under {c : EntityId} {s : Surrogate α} {t : Transform α} (hs : v.state c = .ok s)
      (habove : Placed v s.parent t) : Placed v (some c) (t.comp s.localTransform)

theorem Placed.unique (h : v.Placed cur t) (h' : v.Placed cur t') : t = t' := by
  induction h generalizing t' with
  | root =>
    cases h'
    rfl
  | under hs _ ih =>
    cases h' with
    | under hs' habove' =>
      rw [hs] at hs'
      cases hs'
      rw [ih habove']

/-- What has a place has it relative to its parent, which has one too. -/
theorem Placed.above (h : v.Placed (some c) t) (hs : v.state c = .ok s) :
    ∃ t', v.Placed s.parent t' ∧ t = t'.comp s.localTransform := by
  cases h with
  | under hs' habove =>
    rw [hs] at hs'
    cases hs'
    exact ⟨_, habove, rfl⟩

/-- Down to a placed entity there is a line from the top. -/
theorem Placed.exists_lineage (h : v.Placed cur t) : ∃ chain, v.Lineage cur chain := by
  induction h with
  | root => exact ⟨[], .root⟩
  | under hs _ ih =>
    obtain ⟨chain, hchain⟩ := ih
    exact ⟨_, .link hs hchain⟩

theorem Lineage.exists_placed {chain : List EntityId} (h : v.Lineage cur chain) :
    ∃ t, v.Placed cur t := by
  induction h with
  | root => exact ⟨_, .root⟩
  | link hs _ ih =>
    obtain ⟨t, ht⟩ := ih
    exact ⟨_, .under hs ht⟩

/-- Nothing that is placed is below itself. -/
theorem Placed.not_below (h : v.Placed (some c) t) : ¬Relation.TransGen v.ParentLink c c := by
  obtain ⟨chain, hchain⟩ := h.exists_lineage
  exact hchain.not_below

/-!
## What queries compute

A query collects the way up and puts the local placements together, root first. Along a line of
parents that is the placement of the last one, whatever the length of the line.
-/

/-- The local placements along a line of parents, root first, add up to the placement. -/
theorem Lineage.placed_foldl {chain : List EntityId} {above : List (Surrogate α)}
    (h : v.Lineage cur chain) (habove : List.Forall₂ (fun c s => v.state c = .ok s) chain above) :
    v.Placed cur (above.reverse.foldl (fun t s => t.comp s.localTransform) .identity) := by
  induction h generalizing above with
  | root =>
    cases habove
    exact .root
  | link hs _ ih =>
    cases habove with
    | cons hs' hrest =>
      rw [hs] at hs'
      cases hs'
      rw [List.reverse_cons, List.foldl_append]
      exact .under hs (ih hrest)

/-- A placement is computed for what is placed, if it is finite. -/
theorem worldTransform_eq_ok {id : EntityId} :
    v.worldTransform id = .ok t ↔ v.Placed (some id) t ∧ t.isFinite = true := by
  -- once the three look-ups are there, only the check for finite entries is left
  have hworld : ∀ {own : Surrogate α} {chain : List EntityId} {above : List (Surrogate α)},
      v.state id = .ok own → v.ancestors id = .ok chain → chain.mapM v.state = .ok above →
      ∃ t', v.Placed (some id) t' ∧
        v.worldTransform id = if t'.isFinite then .ok t' else .error (.degenerateTransform id) := by
    intro own chain above hown hchain habove
    obtain ⟨own', hown', hlineage, _⟩ := ancestors_eq_ok.1 hchain
    have hall : List.Forall₂ (fun c s => v.state c = .ok s) (id :: chain) (own :: above) :=
      .cons hown (mapM_eq_ok.1 habove)
    refine ⟨_, (Lineage.link hown' hlineage).placed_foldl hall, ?_⟩
    unfold worldTransform
    rw [hown, hchain]
    show (chain.mapM v.state >>= fun above => _) = _
    rw [habove]
    rfl
  constructor
  · intro h
    obtain ⟨own, hown, hrest⟩ := bind_eq_ok.1 h
    obtain ⟨chain, hchain, hrest⟩ := bind_eq_ok.1 hrest
    obtain ⟨above, habove, _⟩ := bind_eq_ok.1 hrest
    obtain ⟨t', ht', heq⟩ := hworld hown hchain habove
    rw [h] at heq
    split at heq
    · next hfinite =>
      cases heq
      exact ⟨ht', hfinite⟩
    · cases heq
  · rintro ⟨h, hfinite⟩
    obtain ⟨chain, hchain⟩ := h.exists_lineage
    cases hchain with
    | @link _ own rest hown hrest =>
      -- what is placed has a line of parents, and the walk up returns it
      have hchain : v.ancestors id = .ok rest := (Lineage.link hown hrest).ancestors_eq
      obtain ⟨above, habove⟩ := exists_mapM fun c hc => hrest.exists_state (c := c) hc
      obtain ⟨t', ht', heq⟩ := hworld hown hchain habove
      rw [heq, ht'.unique h, if_pos hfinite]

/-- A box is computed for what is enabled and placed: the one stored, placed there. -/
theorem worldBounds_eq_ok {id : EntityId} {extended : Bool} {box : Obb α} :
    v.worldBounds id extended = .ok (some box) ↔ ∃ s t, v.state id = .ok s ∧ s.enabled = true ∧
      v.Placed (some id) t ∧ t.isFinite = true ∧ box = (s.bounds extended).transform t := by
  unfold worldBounds
  -- the three calls of the code in their order: the state, its flag, the world transform
  cases hs : v.state id with
  | error f => simp [bind, Except.bind]
  | ok s =>
    cases henabled : s.enabled with
    | false => simp [bind, Except.bind, pure, Except.pure, henabled]
    | true =>
      simp only [bind, Except.bind, henabled, if_true, Except.ok.injEq]
      constructor
      · intro h
        obtain ⟨t, ht, hbox⟩ := bind_eq_ok.1 h
        obtain ⟨hplaced, hfinite⟩ := worldTransform_eq_ok.1 ht
        exact ⟨s, t, rfl, henabled, hplaced, hfinite, (Option.some.inj (pure_eq_ok.1 hbox)).symm⟩
      · rintro ⟨_, t, rfl, _, hplaced, hfinite, rfl⟩
        rw [worldTransform_eq_ok.2 ⟨hplaced, hfinite⟩]
        rfl

/-! ## Placements when one entity changes -/

theorem Placed.reach (h : v.Placed (some c) t) (hreach : Relation.ReflTransGen v.ParentLink c x) :
    ∃ t', v.Placed (some x) t' := by
  induction hreach using Relation.ReflTransGen.head_induction_on generalizing t with
  | refl => exact ⟨t, h⟩
  | head hab _ ih =>
    obtain ⟨s, hs, hp⟩ := hab
    obtain ⟨t', ht', _⟩ := h.above hs
    rw [hp] at ht'
    exact ih ht'

/-- Where the way up misses the entity, nothing moves. -/
theorem Placed.of_avoiding (hother : ∀ c, c ≠ x → w.state c = v.state c) (h : w.Placed cur t)
    (havoid : ∀ c, cur = some c → ¬Relation.ReflTransGen w.ParentLink c x) : v.Placed cur t := by
  induction h with
  | root => exact .root
  | @under c s t hs _ ih =>
    have hc : c ≠ x := fun hcx => havoid c rfl (hcx ▸ .refl)
    have hs' : v.state c = .ok s := (hother c hc).symm.trans hs
    exact .under hs' (ih fun p hp hreach => havoid c rfl (hreach.head ⟨s, hs, hp⟩))

/-- Everything stays placed when the entity does. -/
theorem Placed.exists_after (hother : ∀ c, c ≠ x → w.state c = v.state c)
    (hx : ∃ t, w.Placed (some x) t) (h : v.Placed cur t) : ∃ t', w.Placed cur t' := by
  induction h with
  | root => exact ⟨_, .root⟩
  | @under c s t hs _ ih =>
    by_cases hc : c = x
    · exact hc ▸ hx
    · obtain ⟨t', ht'⟩ := ih
      exact ⟨_, .under ((hother c hc).trans hs) ht'⟩

end View

end SceneGuard
