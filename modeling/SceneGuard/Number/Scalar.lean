/-!
# Scalars

Everything that is measured in a scene (positions, angles, sizes, tolerances) is written over a type
`α` of scalars. `Scalar α` lists the operations this library uses and no laws: binary floating point
runs the checks, and the same definitions read over the real numbers say what they compute when no
operation rounds.
-/

namespace SceneGuard

/-- The arithmetic and the comparisons a scene is computed with. -/
class Scalar (α : Type) extends Zero α, One α, Add α, Sub α, Mul α, Div α, Neg α, OfScientific α,
    LT α, LE α, BEq α where
  decLt : DecidableLT α
  decLe : DecidableLE α
  abs : α → α
  sqrt : α → α
  sin : α → α
  cos : α → α
  /-- The nearest integer; a half goes away from zero. -/
  round : α → α
  /-- The smaller of two scalars. One that is not a number gives way to the other. -/
  least : α → α → α
  /-- The greater of two scalars. One that is not a number gives way to the other. -/
  greatest : α → α → α
  isFinite : α → Bool
  /-- Not a number at all, as the quotient of two zeros is. -/
  isNaN : α → Bool
  /-- A total order that refines `<`: it also places what `<` leaves incomparable. -/
  precedes : α → α → Bool
  ofInt : Int → α

attribute [reducible, instance] Scalar.decLt Scalar.decLe

namespace Scalar

variable {α : Type} [Scalar α]

/-- The smaller of two scalars, the second when they do not compare. -/
def lower (a b : α) : α :=
  if a ≤ b then a else b

/-- The greater of two scalars, the second when they do not compare. -/
def upper (a b : α) : α :=
  if b ≤ a then a else b

/-- Whether `x` lies in the closed interval from `lo` to `hi`. -/
def within (lo hi x : α) : Bool :=
  decide (lo ≤ x) && decide (x ≤ hi)

end Scalar

end SceneGuard
