import Mathlib.Analysis.SpecialFunctions.Trigonometric.Basic
import SceneGuard.Number.Scalar

/-!
# Real scalars

The definitions of this library read over the real numbers, where nothing rounds. What a text says a
number is plays no part here.
-/

namespace SceneGuard

open scoped Classical in
noncomputable instance : Scalar ℝ where
  beq a b := decide (a = b)
  decLt _ _ := inferInstance
  decLe _ _ := inferInstance
  abs x := |x|
  sqrt := Real.sqrt
  sin := Real.sin
  cos := Real.cos
  round x := if 0 ≤ x then ⌊x + 1 / 2⌋ else -⌊-x + 1 / 2⌋
  least := min
  greatest := max
  isFinite _ := true
  isNaN _ := false
  precedes a b := decide (a < b)
  ofInt n := n

end SceneGuard
