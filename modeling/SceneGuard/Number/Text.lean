import SceneGuard.Number.Decimal
import SceneGuard.Text.Blank
import SceneGuard.Text.Digits

/-!
# Scalars as text

Scalars appear in notes in two forms, and text properties may spell one. `plain` writes all digits
and no power of ten (`3`, `0.0000001`); `full` always shows that a scalar is meant (`3.0`) and goes
over to powers of ten for very large and very small values.
-/

namespace SceneGuard

/-- How scalars are written and read. -/
class NumberText (α : Type) where
  plain : α → String
  full : α → String
  ofText? : String → Option α

namespace NumberText

/-- A float with its sign; `write` gets the digits of a finite one. -/
def signed (x : Float) (write : Decimal → String) : String :=
  if x.isNaN then "NaN"
  else (if Binary.isNegative x then "-" else "") ++
    if x.isFinite then write (Decimal.ofFloat x) else "inf"

/-- Powers of ten are written from `10 ^ 16` on and below `10 ^ -4`. -/
def fullLayout : Decimal.Layout := ⟨-3, 16, ".0"⟩

/-- The decimal that digits before and after a point and a power of ten spell. -/
def decimalOf (whole fraction : List Char) (power : Int) : Decimal :=
  ⟨Digits.toNat (whole ++ fraction), power - fraction.length⟩

/-- A power of ten at the end of a number: `e` or `E`, a sign if any, and digits. -/
def power? : List Char → Option Int
  | [] => some 0
  | c :: rest =>
    if c ≠ 'e' ∧ c ≠ 'E' then none
    else
      let (negative, digits) := match rest with
        | '-' :: ds => (true, ds)
        | '+' :: ds => (false, ds)
        | ds => (false, ds)
      if digits.isEmpty || !digits.all Char.isDigit then none
      else
        let n : Int := Digits.toNat digits
        some (if negative then -n else n)

/-- Digits with at most one point and at least one digit, and a power of ten if any. -/
def decimal? (cs : List Char) : Option Decimal :=
  let (whole, rest) := Digits.split cs
  let (fraction, rest) := match rest with
    | '.' :: r => Digits.split r
    | r => ([], r)
  if whole.isEmpty && fraction.isEmpty then none
  else (power? rest).map (decimalOf whole fraction)

/-- A float without its sign; infinity and the missing number have names in letters of any case. -/
def unsigned? (cs : List Char) : Option Float :=
  match String.ofList (cs.map Char.toLower) with
  | "inf" | "infinity" => some (1.0 / 0.0)
  | "nan" => some (0.0 / 0.0)
  | _ => (decimal? cs).map Decimal.toFloat

/-- The double a text stands for; none when it is no number. -/
def float? (s : String) : Option Float :=
  match s.toList with
  | '-' :: cs => (unsigned? cs).map (- ·)
  | '+' :: cs => unsigned? cs
  | cs => unsigned? cs

end NumberText

instance : NumberText Float where
  plain x := NumberText.signed x (·.positional "")
  full x := NumberText.signed x (·.write NumberText.fullLayout)
  ofText? := NumberText.float?

end SceneGuard
