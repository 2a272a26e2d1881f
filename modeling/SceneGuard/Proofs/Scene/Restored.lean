import SceneGuard.Number.Binary
import SceneGuard.Proofs.Scene.Aspects
import SceneGuard.Proofs.Scene.ResetBlock

/-!
# What a reset block leaves

The scene to which the reset block of an edit is applied need not be one that the edit led to:
nothing of the edit may have been executed, or only some of it, or what it sets may have changed
since. For edits that set no parents the block leaves, in each aspect that the edit sets, the value
from which the first member goes that sets it, whatever was there (`Scene.Restored`). Main
statements:

* `restored_of_takes` — so it is when the edits are turned around in reverse, the first one last;
* `apply_resetBlock` — so it is for the whole edit where all its entities are there, and else for
  what comes after the last member whose entity is missing: at that member the block breaks off.
-/

namespace SceneGuard

variable {α : Type}

/-! ## Values that edits go from -/

namespace Edit

/-- The entity has, in an aspect that an edit sets, the value that the edit goes from. -/
def GoesFrom : Edit α → Aspect → Entity α → Prop
  | .move _ before _, .position, q => q.position = before
  | .rotate _ before _, .rotation, q => q.rotation = before
  | .scale _ before _, .position, q => q.position = before.position
  | .scale _ before _, .scale, q => q.scale = before.scale
  | .reparent _ before _, .parent, q => q.parent = before.parent
  | .reparent _ before _, .position, q => q.position = before.position
  | .changeProperty _ _ before _, .property key, q => q.property key = some before
  | _, _, _ => False

variable {e : Edit α} {a : Aspect} {q q' : Entity α}

/-- An edit that starts at an entity goes from what it has in each aspect it sets. -/
theorem goesFrom_of_startsAt (h : e.StartsAt q) (ha : e.sets a) : e.GoesFrom a q := by
  cases e with
  | add | remove => exact ha.elim
  | move | rotate | changeProperty =>
    cases ha
    exact h
  | scale | reparent =>
    rcases ha with rfl | rfl
    · exact h.1
    · exact h.2

/-- From which value it goes depends on the aspect only. -/
theorem GoesFrom.congr (h : e.GoesFrom a q) (hsame : a.Same q q') : e.GoesFrom a q' := by
  cases e <;> cases a <;> first | exact h.elim | exact Eq.trans (Eq.symm hsame) h

end Edit

namespace Scene

variable {s t m : Scene α} {e e' : Edit α} {es : List (Edit α)} {id : EntityId} {a : Aspect}

/-- Of the edits of a list, this is the first one that sets an aspect of an entity. -/
def FirstSets (es : List (Edit α)) (e : Edit α) (id : EntityId) (a : Aspect) : Prop :=
  ∃ before after, es = before ++ e :: after ∧ Sets e id a ∧ ∀ e' ∈ before, ¬Sets e' id a

/-- Where there are no edits none is the first. -/
theorem not_firstSets_nil : ¬FirstSets [] e id a := by
  rintro ⟨before, after, hsplit, _⟩
  exact List.append_ne_nil_of_right_ne_nil before (List.cons_ne_nil e after) hsplit.symm

/-- The first edit to set something is the first of all, or else the first of the others. -/
theorem firstSets_cons :
    FirstSets (e' :: es) e id a ↔ (e = e' ∧ Sets e id a) ∨
      (¬Sets e' id a ∧ FirstSets es e id a) := by
  constructor
  · rintro ⟨_ | ⟨b, before⟩, after, hsplit, hsets, hbefore⟩
    · exact .inl ⟨(List.cons.inj hsplit).1.symm, hsets⟩
    · obtain ⟨rfl, hrest⟩ := List.cons.inj hsplit
      obtain ⟨hfirst, hbefore⟩ := List.forall_mem_cons.1 hbefore
      exact .inr ⟨hfirst, before, after, hrest, hsets, hbefore⟩
  · rintro (⟨rfl, hsets⟩ | ⟨hfirst, before, after, rfl, hsets, hbefore⟩)
    · exact ⟨[], es, rfl, hsets, fun _ h => absurd h List.not_mem_nil⟩
    · exact ⟨e' :: before, after, rfl, hsets, List.forall_mem_cons.2 ⟨hfirst, hbefore⟩⟩

/-!
## Edits turned around

Several edits may set the same aspect. In reverse, the first of them comes last, and the value that
it went from is the one that stays.
-/

/--
The second scene is the first one with the edits taken back: each entity has, in each aspect that
they set, the value from which the first one goes that sets it. All other aspects are what they
were.
-/
structure Restored (s : Scene α) (es : List (Edit α)) (t : Scene α) : Prop where
  agrees : s.AgreesBut (fun id a => ∃ e ∈ es, Sets e id a) t
  first : ∀ {id q a e}, t.get? id = some q → FirstSets es e id a → e.GoesFrom a q

/-- Turned around in reverse, the first of the edits that set an aspect has the last word. -/
theorem restored_of_takes (hkinds : ∀ e ∈ es, e.kind.isAddOrRemove = false)
    (h : s.Takes (es.reverse.map Edit.reset) t) : s.Restored es t := by
  -- on the batch: its first edit is taken back last, over the start of all the others
  induction es generalizing t with
  | nil =>
    cases h
    exact ⟨.refl _ s, fun _ hfirst => absurd hfirst not_firstSets_nil⟩
  | cons e es ih =>
    rw [List.reverse_cons, List.map_append] at h
    obtain ⟨m, hm, hlast⟩ := takes_append.1 h
    have hrest := ih (fun e' he' => hkinds e' (List.mem_cons_of_mem _ he')) hm
    cases hlast with
    | cons he hnil =>
      cases hnil
      have hkind : e.reset.kind.isAddOrRemove = false := by
        rw [Edit.kind_reset]
        exact hkinds e List.mem_cons_self
      obtain ⟨hagrees, b, hb, hstart⟩ := agreesBut_edit hkind he
      rw [sets_reset] at hagrees
      rw [Edit.entityId_reset] at hb
      refine ⟨(hrest.agrees.trans hagrees).mono fun id a ha => ?_, fun {id q a e'} hq hfirst => ?_⟩
      · rcases ha with ⟨e', he', ha⟩ | ha
        · exact ⟨e', List.mem_cons_of_mem _ he', ha⟩
        · exact ⟨e, List.mem_cons_self, ha⟩
      · -- either this edit sets the aspect first, or it leaves alone what a later one restored
        rcases firstSets_cons.1 hfirst with ⟨rfl, rfl, hsets⟩ | ⟨hnot, hfirst⟩
        · obtain rfl := Option.some.inj (hb.symm.trans hq)
          exact Edit.goesFrom_of_startsAt hstart hsets
        · obtain ⟨q', hq'⟩ := hagrees.symm.exists_get? hq
          exact (hrest.first hq' hfirst).congr (hagrees.same hq' hq a hnot)

/-- Where their entities are there, edits that stay can be taken back. -/
theorem exists_restored (hstays : ∀ e ∈ es, e.stays = true)
    (hthere : ∀ e ∈ es, ∃ q, s.get? e.entityId = some q) :
    ∃ t, s.Takes (es.reverse.map Edit.reset) t ∧ s.Restored es t := by
  have hback : ∀ e' ∈ es.reverse.map Edit.reset, ∃ e ∈ es, e.reset = e' := fun e' he' => by
    obtain ⟨e, he, rfl⟩ := List.mem_map.1 he'
    exact ⟨e, List.mem_reverse.1 he, rfl⟩
  obtain ⟨t, ht⟩ : ∃ t, s.Takes (es.reverse.map Edit.reset) t := exists_takes
    (fun e' he' => by
      obtain ⟨e, he, rfl⟩ := hback e' he'
      rw [Edit.stays_reset]
      exact hstays e he)
    (fun e' he' => by
      obtain ⟨e, he, rfl⟩ := hback e' he'
      rw [Edit.entityId_reset]
      exact hthere e he)
  exact ⟨t, ht, restored_of_takes (fun e he => Edit.kind_of_stays (hstays e he)) ht⟩

/--
**What a reset block leaves of any scene**, for an edit of moves, turns, scalings and property
changes, however grouped. Where all its entities are there, the scene accepts the block, and each
entity has, in each aspect that the edit sets, the value from which the first member goes that sets
it. Where some are missing, the block breaks off at the last member whose entity is, and only what
the members after it set is restored.
-/
theorem apply_resetBlock (s : Scene α) {c : Command α} (hlive : c.living? = some c)
    (hstays : ∀ e ∈ c.edits, e.stays = true) (ids : IdSource) (h : Header) (description : String) :
    let applied := s.apply (.composite h description (c.resetBlock ids).1)
    ((∀ e ∈ c.edits, ∃ q, s.get? e.entityId = some q) → applied.2 = .ok () ∧
      s.Restored c.edits applied.1) ∧
    ∀ es e fs, c.edits = es ++ e :: fs → s.get? e.entityId = none →
      (∀ e' ∈ fs, ∃ q, s.get? e'.entityId = some q) →
      applied.2 = .error (.entityNotFound e.entityId) ∧ s.Restored fs applied.1 := by
  intro applied
  have hedits := Command.edits_block hlive (fun e he => Edit.kind_of_stays (hstays e he)) ids
  have happlied : applied = s.applyAll (c.resetBlock ids).1 := rfl
  constructor
  · intro hthere
    obtain ⟨t, ht, hrestored⟩ := exists_restored hstays hthere
    rw [happlied, applyAll_eq_ok.2 (hedits ▸ ht)]
    exact ⟨rfl, hrestored⟩
  · intro es e fs hsplit hmissing hthere
    rw [hsplit, List.reverse_append, List.reverse_cons, List.append_assoc, List.map_append,
      List.map_append] at hedits
    rw [hsplit] at hstays
    obtain ⟨t, ht, hrestored⟩ : ∃ t, s.Takes (fs.reverse.map Edit.reset) t ∧ s.Restored fs t :=
      exists_restored
      (fun e' he' => hstays e' (List.mem_append_right _ (List.mem_cons_of_mem _ he'))) hthere
    -- the members after it have brought in no entity
    have hgone : t.get? e.reset.entityId = none := by
      rw [Edit.entityId_reset, ← Option.isNone_iff_eq_none, ← Option.not_isSome,
        ← hrestored.agrees.present, hmissing]
      rfl
    have hrefused := edit_of_missing (e := e.reset)
      ((Edit.stays_reset e).trans (hstays e (List.mem_append_right _ List.mem_cons_self))) hgone
    rw [Edit.entityId_reset] at hrefused
    rw [happlied, applyAll_of_refused hedits ht hrefused]
    exact ⟨rfl, hrestored⟩

/-- Two boxes, somewhere on the floor. -/
def floor : Scene Float :=
  { entities := .ofList [(1, { Entity.new 1 .model (.splat 1) with position := .splat 7 }),
      (2, { Entity.new 2 .model (.splat 1) with position := .splat 8 })] }

/-- The first box is pushed twice, with the second one made larger in between. -/
def tidying : Command Float :=
  .composite { id := 1 } "tidy"
    [.single { id := 2 } (.move 1 (.splat 0) (.splat 1)),
      .composite { id := 3 } "push on"
        [.single { id := 4 } (.scale 2 ⟨.splat 0, .splat 1⟩ ⟨.splat 0, .splat 2⟩),
          .single { id := 5 } (.move 1 (.splat 1) (.splat 2))]]

/-- Two boxes are pushed, and between them one that nobody knows. -/
def mislaid : Command Float :=
  .composite { id := 1 } "push"
    [.single { id := 2 } (.move 1 (.splat 0) (.splat 1)),
      .composite { id := 3 } "push on"
        [.single { id := 4 } (.move 42 (.splat 0) (.splat 1)),
          .single { id := 5 } (.move 2 (.splat 0) (.splat 1))]]

/-- The first box goes back to where it was before it was pushed at all. -/
theorem apply_resetBlock_tidying :
    tidying.living? = some tidying ∧ (∀ e ∈ tidying.edits, e.stays = true) ∧
    (∀ e ∈ tidying.edits, ∃ q, floor.get? e.entityId = some q) ∧
    ∃ t, floor.apply (.composite { id := 9 } "back" (tidying.resetBlock {}).1) = (t, .ok ()) ∧
      floor.Restored tidying.edits t ∧ ∀ q, t.get? 1 = some q → q.position = .splat 0 := by
  have hlive : tidying.living? = some tidying := by rfl
  have hstays : ∀ e ∈ tidying.edits, e.stays = true := by decide
  have hthere : ∀ e ∈ tidying.edits, ∃ q, floor.get? e.entityId = some q := by
    have hsome : ∀ e ∈ tidying.edits, (floor.get? e.entityId).isSome = true := by decide
    exact fun e he => Option.isSome_iff_exists.1 (hsome e he)
  obtain ⟨hok, hrestored⟩ := (apply_resetBlock floor hlive hstays {} { id := 9 } "back").1 hthere
  have hfirst : FirstSets tidying.edits (.move 1 (.splat 0) (.splat 1)) 1 .position :=
    ⟨[], _, rfl, ⟨rfl, rfl⟩, fun _ h => absurd h List.not_mem_nil⟩
  exact ⟨hlive, hstays, hthere, _, Prod.ext rfl hok, hrestored,
    fun q hq => hrestored.first hq hfirst⟩

/-- At the missing box the block breaks off, and the first box stays where it is. -/
theorem not_apply_resetBlock :
    ¬∀ (s : Scene Float) (c : Command Float), c.living? = some c → (∀ e ∈ c.edits, e.stays = true) →
      ∀ ids h description id q e a,
        (s.apply (.composite h description (c.resetBlock ids).1)).1.get? id = some q →
        FirstSets c.edits e id a → e.GoesFrom a q := by
  intro hclaim
  have hfirst : FirstSets mislaid.edits (.move 1 (.splat 0) (.splat 1)) 1 .position :=
    ⟨[], _, rfl, ⟨rfl, rfl⟩, fun _ h => absurd h List.not_mem_nil⟩
  have hposition :
      ({ Entity.new 1 .model (.splat 1) with position := .splat 7 } : Entity Float).position =
      .splat 0 :=
    hclaim floor mislaid (by rfl) (by decide) {} { id := 9 } "back" 1 _ _ _ (by rfl) hfirst
  exact absurd hposition (by decide)

end Scene

end SceneGuard
