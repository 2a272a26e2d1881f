import SceneGuard.Number.Scalar

/-!
# Binary floating point

The scalars the checks run on: 64-bit binary floating point, each operation rounded to nearest.
-/

namespace SceneGuard

namespace Binary

/--
The bits of a float as an integer that grows with the float: for a set sign bit all lower bits are
flipped. It also places the two zeros (`-0.0` first) and what is not a number (at the ends).
-/
def rank (x : Float) : Int :=
  let bits := x.toBits
  if bits < 0x8000000000000000 then bits.toNat else 0x7FFFFFFFFFFFFFFF - (bits.toNat : Int)

/-- The smaller of two doubles; a number goes before what is no number. -/
def least (a b : Float) : Float :=
  if a.isNaN then b else if b.isNaN then a else if a ≤ b then a else b

/-- The greater of two doubles; a number goes before what is no number. -/
def greatest (a b : Float) : Float :=
  if a.isNaN then b else if b.isNaN then a else if b ≤ a then a else b

end Binary

instance : Scalar Float where
  zero := 0.0
  one := 1.0
  decLt := inferInstance
  decLe := inferInstance
  abs := Float.abs
  sqrt := Float.sqrt
  sin := Float.sin
  cos := Float.cos
  round := Float.round
  least := Binary.least
  greatest := Binary.greatest
  isFinite := Float.isFinite
  isNaN := Float.isNaN
  precedes a b := decide (Binary.rank a < Binary.rank b)
  ofInt := Float.ofInt

end SceneGuard
