import Mathlib.Data.List.Induction
import SceneGuard.Geometry.Obb

/-!
# Boxes carry no history

A box is described once and then bordered, updated and placed in any order (`BoxStep`). What it
keeps beside its description (the region it fills, the center, half extents and corners of that
region, and for an oriented box the frame it has of its own and the one it has where it is placed)
is written anew by each of these steps, partly from what the step before has left. Main statements:

* `Obb.after_place` — however it was handled, an oriented box is the one of its description at its
  placement;
* `Aabb.after_eq` — a box along the axes keeps its placement until it is updated or bordered;
* `boxes_carry_no_history` — so a box is the new one with the last border, placed at most once.

No law of arithmetic is used: the boxes agree in every bit of every field, also where a placement
has collapsed, is infinite or is not a number.
-/

namespace SceneGuard

/-- What can be done to a box once it is made. -/
inductive BoxStep (α : Type) where
  | border (width : Vec3 α)
  | update
  | place (t : Transform α)

namespace BoxStep

variable {α : Type}

/-- The border that a step sets. -/
def border? : BoxStep α → Option (Vec3 α)
  | border width => some width
  | _ => none

/-- The placement that a step gives. -/
def placement? : BoxStep α → Option (Transform α)
  | place t => some t
  | _ => none

/-- The border that was set last. -/
def lastBorder? (steps : List (BoxStep α)) : Option (Vec3 α) := steps.reverse.findSome? border?

/-- The placement that was given last. -/
def lastPlacement? (steps : List (BoxStep α)) : Option (Transform α) :=
  steps.reverse.findSome? placement?

/-- The placement that was given last, where no update and no border came after it. -/
def standing? (steps : List (BoxStep α)) : Option (Transform α) := steps.getLast?.bind placement?

/-- A step with a border makes it the last one; any other leaves the last one in place. -/
theorem lastBorder?_concat (steps : List (BoxStep α)) (step : BoxStep α) :
    lastBorder? (steps ++ [step]) = step.border?.or (lastBorder? steps) := by
  simp only [lastBorder?, List.reverse_concat, List.findSome?_cons]
  cases step.border? <;> rfl

/-- A transform replaces the placement, and nothing else does. -/
theorem lastPlacement?_concat (steps : List (BoxStep α)) (step : BoxStep α) :
    lastPlacement? (steps ++ [step]) = step.placement?.or (lastPlacement? steps) := by
  simp only [lastPlacement?, List.reverse_concat, List.findSome?_cons]
  cases step.placement? <;> rfl

/-- An unplaced box stands where its last step put it, whatever came before. -/
theorem standing?_concat (steps : List (BoxStep α)) (step : BoxStep α) :
    standing? (steps ++ [step]) = step.placement? := by
  rw [standing?, List.getLast?_concat, Option.bind_some]

end BoxStep

/-- The same box with the given border; without one it keeps its own. -/
def LocalBox.rebordered {α : Type} (b : LocalBox α) (border? : Option (Vec3 α)) : LocalBox α :=
  { b with border := border?.getD b.border }

open BoxStep

variable {α : Type} [Scalar α]

/-!
## Boxes along the axes

Three fields tell everything about such a box: its description, the placement it was given last, and
the region, which is that of the placement it had when it was last updated or bordered.
-/

namespace Aabb

/-- A box after one step. -/
def perform (b : Aabb α) : BoxStep α → Aabb α
  | .border width => b.withBorder width
  | .update => b.update
  | .place t => b.transform t

/-- A box after some steps. -/
def after (b : Aabb α) (steps : List (BoxStep α)) : Aabb α := steps.foldl perform b

/-- The unplaced box between two corners, with the border if there is one. -/
def fresh (min max scale : Vec3 α) (border? : Option (Vec3 α)) : Aabb α :=
  border?.elim (new min max scale) (new min max scale).withBorder

/-- One more step is performed on what the others have left. -/
theorem after_concat (b : Aabb α) (steps : List (BoxStep α)) (step : BoxStep α) :
    b.after (steps ++ [step]) = (b.after steps).perform step := by
  simp only [after, List.foldl_append, List.foldl_cons, List.foldl_nil]

/-- A fresh box is made of its description, with the border if there is one. -/
theorem fresh_eq (min max scale : Vec3 α) (border? : Option (Vec3 α)) :
    fresh min max scale border? = ofShape ((new min max scale).shape.rebordered border?) := by
  cases border? <;> rfl

/-- Placing a box starts from its description. -/
theorem transform_congr {b c : Aabb α} (h : b.shape = c.shape) (t : Transform α) :
    b.transform t = c.transform t := by
  unfold transform
  rw [update_eq, update_eq, h]

/-- Of the description, steps change the border alone. -/
theorem shape_after (b : Aabb α) (steps : List (BoxStep α)) :
    (b.after steps).shape = b.shape.rebordered (lastBorder? steps) := by
  induction steps using List.reverseRecOn with
  | nil => rfl
  | append_singleton steps step ih =>
    rw [after_concat, lastBorder?_concat]
    cases step with
    | border width => exact congrArg (fun s : LocalBox α => { s with border := width }) ih
    | update => exact ih
    | place t => exact ih

/-- Where an unplaced box is after some steps:
an update or a border takes it back to its own frame. -/
theorem after_eq (shape : LocalBox α) (steps : List (BoxStep α)) :
    (ofShape shape).after steps =
      let unplaced := ofShape (shape.rebordered (lastBorder? steps))
      (standing? steps).elim unplaced unplaced.transform := by
  cases steps using List.reverseRecOn with
  | nil => rfl
  | append_singleton steps step =>
    have hshape := shape_after (ofShape shape) steps
    rw [shape_ofShape] at hshape
    rw [after_concat, lastBorder?_concat, standing?_concat]
    -- what a step leaves depends on the description it finds and on nothing else that is stored
    cases step with
    | border width =>
      show ((ofShape shape).after steps).withBorder width = _
      rw [withBorder_eq, hshape]
      rfl
    | update =>
      show ((ofShape shape).after steps).update = _
      rw [update_eq, hshape]
      rfl
    | place t =>
      show ((ofShape shape).after steps).transform t = _
      exact transform_congr hshape t

end Aabb

/-!
## Oriented boxes

Every operation ends by placing the box, so its own frame and the frame in the world are those of
the description and the placement it has at that moment.
-/

namespace Obb

/-- A box after one step. -/
def perform (b : Obb α) : BoxStep α → Obb α
  | .border width => b.withBorder width
  | .update => b.update
  | .place t => b.transform t

/-- A box after some steps. -/
def after (b : Obb α) (steps : List (BoxStep α)) : Obb α := steps.foldl perform b

/-- The unplaced box between two corners, with the border if there is one. -/
def fresh (min max scale : Vec3 α) (border? : Option (Vec3 α)) : Obb α :=
  border?.elim (new min max scale) (new min max scale).withBorder

theorem after_concat (b : Obb α) (steps : List (BoxStep α)) (step : BoxStep α) :
    b.after (steps ++ [step]) = (b.after steps).perform step := by
  simp only [after, List.foldl_append, List.foldl_cons, List.foldl_nil]

/-- Placing a box starts from its description, and from its own frame as it was read off last. -/
theorem transform_congr {b c : Obb α} (hshape : b.bounds.shape = c.bounds.shape)
    (hcenter : b.localCenter = c.localCenter) (hhalf : b.localHalf = c.localHalf)
    (t : Transform α) : b.transform t = c.transform t := by
  unfold transform
  rw [Aabb.transform_congr hshape, hcenter, hhalf]

/-- A placed box is placed again by its own frame, which is the one of its description. -/
theorem transform_place (shape : LocalBox α) (t u : Transform α) :
    (place shape t).transform u = place shape u :=
  transform_congr (shape_transform _ t) (localCenter_transform _ t) (localHalf_transform _ t) u

/-- An update reads the frame off the description, and puts the box back where it was. -/
theorem update_eq (b : Obb α) : b.update = place b.bounds.shape b.placement := by
  unfold update place
  exact transform_congr rfl rfl rfl b.placement

/-- An oriented box made of a plain one is placed where nothing moves. -/
theorem ofAabb_eq (b : Aabb α) : ofAabb b = place b.shape .identity := by
  unfold ofAabb
  rw [update_eq]

/-- A border is put on the description, and the box goes where it was placed. -/
theorem withBorder_eq (b : Obb α) (border : Vec3 α) :
    b.withBorder border = place { b.bounds.shape with border := border } b.placement := by
  unfold withBorder
  rw [update_eq, Aabb.withBorder_eq, Aabb.shape_ofShape]

theorem shape_place (shape : LocalBox α) (t : Transform α) : (place shape t).bounds.shape = shape :=
  shape_transform _ t

/-- A placed box remembers its placement. -/
theorem placement_place (shape : LocalBox α) (t : Transform α) : (place shape t).placement = t :=
  placement_transform _ t

/-- A fresh oriented box is placed where nothing moves. -/
theorem fresh_eq (min max scale : Vec3 α) (border? : Option (Vec3 α)) :
    fresh min max scale border? =
      place ((Aabb.new min max scale).shape.rebordered border?) .identity := by
  have hnew : new min max scale = place (Aabb.new min max scale).shape .identity := ofAabb_eq _
  unfold fresh
  rw [hnew]
  cases border? with
  | none => rfl
  | some border =>
    show (place (Aabb.new min max scale).shape .identity).withBorder border = _
    rw [withBorder_eq, shape_place, placement_place]
    rfl

/-- However it is handled, a box is the one of its description at its placement. -/
theorem after_place (shape : LocalBox α) (t : Transform α) (steps : List (BoxStep α)) :
    (place shape t).after steps =
      place (shape.rebordered (lastBorder? steps)) ((lastPlacement? steps).getD t) := by
  -- from the end of the history, where the last write of each field stands
  induction steps using List.reverseRecOn with
  | nil => rfl
  | append_singleton steps step ih =>
    rw [after_concat, ih, lastBorder?_concat, lastPlacement?_concat]
    cases step with
    | border width =>
      show (place _ _).withBorder width = _
      rw [withBorder_eq, shape_place, placement_place]
      rfl
    | update =>
      show (place _ _).update = _
      rw [update_eq, shape_place, placement_place]
      rfl
    | place u => exact transform_place _ _ _

end Obb

/--
**Boxes carry no history.** Whatever is done to a new oriented box, it ends as the new one with the
border that was set last, placed once, where it was placed last: that border and that placement are
what it has. Wrapped anew, the box around it is the unplaced one. A box along the axes ends as the
new one with the border that was set last, and placed only if the last placement has not been given
up for an update or another border. The boxes are equal in all that they store, so no center, half
extent or corner is left over from a region that the box filled before.
-/
theorem boxes_carry_no_history (min max scale : Vec3 α) (steps : List (BoxStep α)) :
    (Obb.new min max scale).after steps =
        (Obb.fresh min max scale (lastBorder? steps)).transform
          ((lastPlacement? steps).getD .identity) ∧
      ((Obb.new min max scale).after steps).bounds.shape.border =
        (lastBorder? steps).getD (.splat 0) ∧
      ((Obb.new min max scale).after steps).placement = (lastPlacement? steps).getD .identity ∧
      Obb.ofAabb ((Obb.new min max scale).after steps).bounds =
        Obb.fresh min max scale (lastBorder? steps) ∧
      (Aabb.new min max scale).after steps =
        let unplaced := Aabb.fresh min max scale (lastBorder? steps)
        (standing? steps).elim unplaced unplaced.transform := by
  -- all the history leaves of the oriented box is a description and a placement
  have hobb : (Obb.new min max scale).after steps =
      Obb.place ((Aabb.new min max scale).shape.rebordered (lastBorder? steps))
        ((lastPlacement? steps).getD .identity) := by
    rw [Obb.new, Obb.ofAabb_eq, Obb.after_place]
  refine ⟨?placed, ?border, ?placement, ?wrapped, ?along⟩
  case placed => rw [hobb, Obb.fresh_eq, Obb.transform_place]
  case border => rw [hobb, Obb.shape_place]; rfl
  case placement => rw [hobb, Obb.placement_place]
  case wrapped => rw [hobb, Obb.fresh_eq, Obb.ofAabb_eq, Obb.shape_place]
  case along => rw [Aabb.fresh_eq]; exact Aabb.after_eq _ steps

end SceneGuard
