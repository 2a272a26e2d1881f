import SceneGuard.Proofs.Geometry.Histories
import SceneGuard.Proofs.Speculation.Agreement
import SceneGuard.Proofs.Speculation.Staging

/-!
# Stored boxes

A surrogate stores its two boxes, and an edit writes them anew only when it bears on them. So that
they are the boxes of the surrogate as it stands has to be kept up: a surrogate is *fitted*
(`Surrogate.Fitted`) when building its boxes anew would change nothing. Main statements:

* `Surrogate.fitted_ofEntity`, `Surrogate.Fitted.edit` — surrogates are made fitted, and no edit
  leaves a box behind that the surrogate has outgrown;
* `Surrogate.Fitted.ext` — fitted surrogates that would get the same boxes, and agree otherwise,
  agree;
* `Surrogate.Fitted.transform_bounds` — the box that a query places is the one that the size, the
  scale, the minimum extent and the border of the surrogate call for;
* `WorkingSet.Fitted.speculate` — what a command makes of its entity over fitted surrogates is
  fitted.
-/

namespace SceneGuard

variable {α : Type} [Scalar α]

namespace Surrogate

/-!
## The boxes that a state calls for

Boxes are built from size, scale, minimum extent and border, and building them writes nothing else.
Of these four an edit can change the scale only.
-/

/-- The boxes stored are those that the surrogate would get if they were built now. -/
def Fitted (s : Surrogate α) : Prop := s.rebuildBounds = s

variable {s s' : Surrogate α} {extended : Bool}

theorem fitted_rebuildBounds (s : Surrogate α) : s.rebuildBounds.Fitted := rfl

theorem fitted_ofEntity (e : Entity α) : (ofEntity e).Fitted := fitted_rebuildBounds _

/-- Fitted surrogates are told apart by what they hold besides their boxes. -/
theorem Fitted.ext (hs : s.Fitted) (hs' : s'.Fitted) (h : s.rebuildBounds = s'.rebuildBounds) :
    s = s' :=
  hs.symm.trans (h.trans hs')

/-- To be disabled does not bear on boxes. -/
theorem Fitted.disabled (h : s.Fitted) : s.disabled.Fitted := congrArg Surrogate.disabled h

/-- An edit keeps the boxes up: where it changes what they are built from, it builds them anew. -/
theorem Fitted.edit {e : Edit α} (hs : s.Fitted) (h : s.edit e = some s') : s'.Fitted := by
  cases e <;> simp only [Surrogate.edit, Option.some.injEq, reduceCtorEq] at h <;> subst h
  case add => exact fitted_ofEntity _
  case remove => exact hs.disabled
  case move after => exact congrArg (fun s : Surrogate α => { s with position := after }) hs
  case rotate after => exact congrArg (fun s : Surrogate α => { s with rotation := after }) hs
  -- the one edit after which the old boxes would be wrong
  case scale after => exact fitted_rebuildBounds _
  case reparent after =>
    exact congrArg
      (fun s : Surrogate α => { s with parent := after.parent, position := after.position }) hs

/-- A command keeps the boxes up, as its edit does. -/
theorem Fitted.apply {c : Command α} (hs : s.Fitted) (h : s.apply c = some s') : s'.Fitted := by
  cases c with
  | single header e => exact hs.edit (Option.ite_none_right_eq_some.1 h).2
  | composite => cases h

/-- An unplaced box is one placed where nothing moves. -/
theorem unplaced_eq (shape : LocalBox α) : unplaced shape = Obb.place shape .identity := by
  unfold unplaced Obb.new
  rw [Obb.ofAabb_eq, Obb.withBorder_eq, Obb.shape_place, Obb.placement_place]
  rfl

/-- Either box stored is the one that would be built now. -/
theorem Fitted.bounds_eq (h : s.Fitted) : s.bounds extended = unplaced (s.shape extended) := by
  have hbuilt : s.bounds extended = s.rebuildBounds.bounds extended := by rw [h]
  rw [hbuilt]
  unfold bounds shape rebuildBounds
  cases extended with
  | false => rfl
  | true => cases s.extendedShape? <;> rfl

/-- The box that is placed is the one that the state calls for:
the stored ones are not out of date. -/
theorem Fitted.transform_bounds (h : s.Fitted) (t : Transform α) :
    (s.bounds extended).transform t = Obb.place (s.shape extended) t := by
  rw [h.bounds_eq, unplaced_eq, Obb.transform_place]

end Surrogate

/-!
## Fitted views

What a query sees comes from the working set, from an entity of the scene, or from the command under
test. If the working set is fitted, so are all three.
-/

/-- All surrogates of the working set have the boxes they call for. -/
def WorkingSet.Fitted (w : WorkingSet α) : Prop := ∀ id s, w.get? id = some s → s.Fitted

/-- Whatever is seen has the boxes it calls for. -/
def View.Fitted (v : View α) : Prop := ∀ id s, v.state id = .ok s → s.Fitted

namespace WorkingSet

variable {w : WorkingSet α} {scene : Scene α} {options : CollisionOptions α} {s : Surrogate α}

/-- A fitted surrogate may join fitted ones. -/
theorem Fitted.add (hw : w.Fitted) (hs : s.Fitted) : (w.add s).Fitted := by
  intro id q hq
  rw [get?_add] at hq
  split at hq
  · cases hq
    exact hs
  · exact hw id q hq

/-- What a query has settled comes from the working set, or is made of an entity. -/
theorem Fitted.settled {id : EntityId} (hw : w.Fitted)
    (h : (w.viewFor scene options).settled id = .ok s) : s.Fitted := by
  rcases found_of_settled h with hs | ⟨e, _, rfl⟩
  · exact hw id s hs
  · exact Surrogate.fitted_ofEntity e

/-- What a command makes of its entity over fitted surrogates is fitted. -/
theorem Fitted.speculate {c : Command α} (hw : w.Fitted)
    (h : (w.viewFor scene options).speculate c = .ok (some s)) : s.Fitted := by
  cases c with
  | composite => cases h
  | single header e =>
    cases e with
    | add role e => exact (Surrogate.fitted_ofEntity e).apply (Except.ok.inj h)
    | _ =>
      obtain ⟨q, hq, h⟩ := bind_eq_ok.1 h
      exact (hw.settled hq).apply (pure_eq_ok.1 h)

/-- What an approved command leaves in the working set is fitted. -/
theorem Fitted.surrogateFor {c : Command α} (hw : w.Fitted)
    (h : w.surrogateFor scene c = .ok (some s)) : s.Fitted := by
  -- the margin of a query has no part in what is tried
  have hmade : (w.viewFor scene { margin := w.epsilon }).speculate c = .ok (some s) := h
  exact hw.speculate hmade

/-- A query sees fitted surrogates when those of the working set are fitted,
and the one it tries. -/
theorem Fitted.trying (hw : w.Fitted) (hs : s.Fitted) :
    ((w.viewFor scene options).trying s).Fitted := by
  intro id q hq
  rw [View.state_trying] at hq
  split at hq
  · cases hq
    exact hs
  · exact hw.settled hq

end WorkingSet

end SceneGuard
