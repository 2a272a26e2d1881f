import SceneGuard.Rule.Basic

/-!
# Limits

Limits on the numbers that scales and properties take. The limits themselves are allowed.
-/

namespace SceneGuard

namespace PropertyValue

variable {α : Type} [Scalar α] [NumberText α]

/-- The value as a number, if it is one. A text is read as one;
truth values and vectors are none. -/
def asNumber : PropertyValue α → Option α
  | .int n => some (Scalar.ofInt n.toInt)
  | .number x => some x
  | .text s => NumberText.ofText? (String.ofList (Blank.trim s.toList))
  | .bool _ | .vector _ => none

end PropertyValue

namespace Rule

variable {α μ : Type} [Scalar α]

/-- Reject a scale with a component whose size is outside the limits. -/
def scaleRange (min max : α) : Rule α μ :=
  judging "scale_range" fun _ c v =>
    match c with
    | .single _ (.scale _ _ after) =>
      if after.scale.all fun k => Scalar.within min max (Scalar.abs k) then .ok v
      else .ok (v.reject .clearCurrent (.scaleOutside after.scale min max))
    | _ => .ok v

variable [NumberText α]

/--
Reject a property that is given a number outside its limits, or no number. Properties without limits
may be anything.
-/
def propertyRange (ranges : List (PropertyRange α)) : Rule α μ :=
  judging "property_range" fun _ c v =>
    match c with
    | .single _ (.changeProperty _ key _ after) =>
      match ranges.find? fun r => r.key = key with
      | none => .ok v
      | some range =>
        -- a text may spell the missing number, which lies between no limits
        match after.asNumber.filter fun x => !Scalar.isNaN x with
        | none => .ok (v.reject .clearCurrent (.notNumeric key))
        | some x =>
          if Scalar.within range.min range.max x then .ok v
          else .ok (v.reject .clearCurrent (.valueOutside key x range.min range.max))
    | _ => .ok v

end Rule

end SceneGuard
