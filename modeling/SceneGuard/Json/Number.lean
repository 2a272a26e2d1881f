import SceneGuard.Data.Document
import SceneGuard.Number.Decimal
import SceneGuard.Text.Digits

/-!
# Numbers in JSON text

A number without a point and a power of ten is whole, as far as 64 bits reach. Any other is a float:
its leading digits, as many as fit in 64 bits, times or divided by one power of ten.
-/

namespace SceneGuard.Json

/-- A number as it is written, before it is known which type takes it. -/
structure Literal where
  negative : Bool
  whole : List Char
  /-- The digits after a point; none without one. -/
  fraction : Option (List Char)
  power : Option Int
  deriving DecidableEq

/-- The most that the leading digits may amount to. -/
def maxSignificand : Nat := UInt64.size - 1

/-- Append digits as long as the number stays within 64 bits: the number,
and how many were appended. -/
def append (n : Nat) : List Char → Nat × Nat
  | [] => (n, 0)
  | c :: cs =>
    let n' := n * 10 + Digits.value c
    if maxSignificand < n' then (n, 0)
    else
      let (m, count) := append n' cs
      (m, count + 1)

/-- Scale by a power of ten, in one rounding; `none` beyond all floats. -/
def scale : Nat → Float → Int → Option Float
  | 0, _, _ => some 0.0
  | fuel + 1, x, e =>
    if x == 0.0 then some x
    else if 308 < e then none
    else if e < -308 then scale fuel (x / Float.ofScientific 1 false 308) (e + 308)
    else
      let power := Float.ofScientific 1 false e.natAbs
      if e < 0 then some (x / power)
      else if (x * power).isFinite then some (x * power) else none

namespace Literal

/-- The float a number stands for; `none` beyond all floats. -/
def toFloat? (l : Literal) : Option Float :=
  let (lead, taken) := append 0 l.whole
  let left := l.whole.length - taken
  let (significand, places) := append lead (l.fraction.getD [])
  let e : Int := (left : Int) - places + l.power.getD 0
  -- no significand takes more than three divisions to vanish
  (scale 4 (Float.ofNat significand) e).map fun x => if l.negative then -x else x

/-- The document a number stands for. The negative zero is a float. -/
def toDocument? (l : Literal) : Option (Document Float) :=
  let n := Digits.toNat l.whole
  if l.fraction.isSome || l.power.isSome then l.toFloat?.map .number
  else if !l.negative && n ≤ maxSignificand then some (.int n)
  else if l.negative && n ≠ 0 && n ≤ Int64.minValue.toInt.natAbs then some (.int (-n))
  else l.toFloat?.map .number

end Literal

def powerSign : List Char → Bool × List Char
  | '-' :: rest => (true, rest)
  | '+' :: rest => (false, rest)
  | rest => (false, rest)

/-- The digits of a power of ten, with a sign in front if any. -/
def exponent? (cs : List Char) : Option (Int × List Char) :=
  let (negative, rest) := powerSign cs
  match Digits.split rest with
  | ([], _) => none
  | (ds, rest) =>
    let n : Int := Digits.toNat ds
    some (if negative then -n else n, rest)

/-- A power of ten, if one follows: `none` when it is begun and not ended. -/
def power? : List Char → Option (Option Int × List Char)
  | 'e' :: rest | 'E' :: rest => (exponent? rest).map fun (n, rest) => (some n, rest)
  | rest => some (none, rest)

def sign : List Char → Bool × List Char
  | '-' :: rest => (true, rest)
  | rest => (false, rest)

/-- The digits after a point, if one follows: `none` when it has none. -/
def fraction? : List Char → Option (Option (List Char) × List Char)
  | '.' :: rest =>
    match Digits.split rest with
    | ([], _) => none
    | (ds, rest) => some (some ds, rest)
  | rest => some (none, rest)

/-- A number at the front of a text, and what follows it. -/
def number? (cs : List Char) : Option (Literal × List Char) :=
  let (negative, cs) := sign cs
  let (whole, cs) := Digits.split cs
  -- a zero in front is all there is before the point
  if whole.isEmpty || (whole.head? = some '0' && 1 < whole.length) then none
  else do
    let (fraction, cs) ← fraction? cs
    let (power, cs) ← power? cs
    return ({ negative, whole, fraction, power }, cs)

end SceneGuard.Json
