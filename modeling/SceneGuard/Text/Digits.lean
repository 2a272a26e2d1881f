/-!
# Digits

The number that a run of decimal digits stands for.
-/

namespace SceneGuard

namespace Digits

/-- What a decimal digit stands for. -/
def value (c : Char) : Nat := c.toNat - '0'.toNat

/-- The value of a run of digits, the most significant first. -/
def toNat (cs : List Char) : Nat := cs.foldl (fun n c => n * 10 + value c) 0

/-- The digits in front, and what follows them. -/
def split (cs : List Char) : List Char × List Char :=
  (cs.takeWhile Char.isDigit, cs.dropWhile Char.isDigit)

/-- What a digit in base sixteen stands for, in either case. -/
def hex? (c : Char) : Option Nat :=
  if c.isDigit then some (value c)
  else if 'a' ≤ c ∧ c ≤ 'f' then some (c.toNat - 'a'.toNat + 10)
  else if 'A' ≤ c ∧ c ≤ 'F' then some (c.toNat - 'A'.toNat + 10)
  else none

/-- A number in base sixteen; none when a character is no digit. -/
def hexToNat? (cs : List Char) : Option Nat :=
  cs.foldlM (fun n c => (hex? c).map (n * 16 + ·)) 0

end Digits

end SceneGuard
