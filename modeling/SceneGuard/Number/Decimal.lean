import SceneGuard.Number.Binary

/-!
# Decimals

The fewest decimal digits that read back as the same float, and the float nearest to a decimal. Both
are computed with whole numbers, so nothing rounds on the way.
-/

namespace SceneGuard

/-- The number `digits * 10 ^ exponent`. -/
structure Decimal where
  digits : Nat
  exponent : Int
  deriving DecidableEq, Repr

/-- The positive number `mantissa * 2 ^ exponent`. -/
structure Binary.Parts where
  mantissa : Nat
  exponent : Int
  /-- Below a power of two floats lie twice as dense as above it. -/
  denseBelow : Bool
  deriving DecidableEq, Repr

namespace Binary

/-- The leading bit of a mantissa, which only the exponent tells of. -/
def hiddenBit : Nat := 0x10000000000000

/-- The mantissa and the exponent of the absolute value of a finite float. -/
def parts (x : Float) : Parts :=
  let bits := x.toBits.toNat % 0x8000000000000000
  let fraction := bits % hiddenBit
  match bits / hiddenBit with
  | 0 => ⟨fraction, -1074, false⟩
  | e => ⟨fraction + hiddenBit, e - 1075, fraction == 0 && e != 1⟩

/-- The sign bit is set, on a negative zero also. -/
def isNegative (x : Float) : Bool := 0x8000000000000000 ≤ x.toBits

end Binary

namespace Decimal

/-- Number of decimal digits; zero has none. -/
def digitCount : Nat → Nat
  | 0 => 0
  | n + 1 => (Nat.toDigits 10 (n + 1)).length

/-- A quotient of whole numbers, in which a double and the limits around it are exact. -/
structure Ratio where
  num : Nat
  den : Nat

def Ratio.ofBinary (n : Nat) (e : Int) : Ratio :=
  ⟨n <<< e.toNat, 1 <<< (-e).toNat⟩

def Ratio.shift (r : Ratio) (k : Int) : Ratio :=
  ⟨r.num * Nat.pow 10 (-k).toNat, r.den * Nat.pow 10 k.toNat⟩

/-- The `p` with `10 ^ (p - 1) ≤ r < 10 ^ p`, for a positive quotient. -/
def Ratio.magnitude (r : Ratio) : Int :=
  -- the counts of digits place `r` up to one power of ten
  let p : Int := (digitCount r.num : Int) - digitCount r.den
  let s := r.shift p
  if s.num < s.den then p else p + 1

/-- Drop zeros at the end of the digits; `fuel` is their number at most. -/
def trim : Nat → Decimal → Decimal
  | 0, d => d
  | fuel + 1, d =>
    if d.digits % 10 = 0 && d.digits ≠ 0 then trim fuel ⟨d.digits / 10, d.exponent + 1⟩ else d

/--
The fewest digits that read back as the number. The numbers that round to `m * 2 ^ e` fill an
interval, with its ends when `m` is even. On the grid of `n` digits only the two neighbours of the
number can be the nearest that lies in it; of two that do, the nearer is taken, and of two equally
near the upper.
-/
def shortest (b : Binary.Parts) : Decimal :=
  -- everything in quarters of the last place
  let e := b.exponent - 2
  let value := Ratio.ofBinary (4 * b.mantissa) e
  let low := Ratio.ofBinary (4 * b.mantissa - if b.denseBelow then 1 else 2) e
  let high := Ratio.ofBinary (4 * b.mantissa + 2) e
  let closed := b.mantissa % 2 = 0
  let p := value.magnitude
  let rec search (n : Nat) : Nat → Decimal
    | 0 => ⟨0, 0⟩
    | fuel + 1 =>
      let k := p - n
      let v := value.shift k
      let l := low.shift k
      let h := high.shift k
      let down := v.num / v.den
      let up := down + 1
      let above (d : Nat) : Bool := if closed then l.num ≤ d * l.den else l.num < d * l.den
      let below (d : Nat) : Bool := if closed then d * h.den ≤ h.num else d * h.den < h.num
      -- `v` lies between the neighbours, so each has one end to keep
      match above down, below up with
      | true, true =>
        if up * v.den - v.num ≤ v.num - down * v.den then ⟨up, k⟩ else ⟨down, k⟩
      | true, false => ⟨down, k⟩
      | false, true => ⟨up, k⟩
      | false, false => search (n + 1) fuel
  trim 20 (search 1 17)

/-- The decimal text of a number, without its sign, and the place of the point from the left. -/
def text (d : Decimal) : List Char × Int :=
  let ds := Nat.toDigits 10 d.digits
  (ds, ds.length + d.exponent)

/-- All digits around the point; `fraction` stands for the digits after it when there are none. -/
def positional (d : Decimal) (fraction : String) : String :=
  let (ds, point) := d.text
  if d.digits = 0 then "0" ++ fraction
  else if point ≤ 0 then
    "0." ++ String.ofList (List.replicate (-point).toNat '0' ++ ds)
  else if ds.length ≤ point.toNat then
    String.ofList (ds ++ List.replicate (point.toNat - ds.length) '0') ++ fraction
  else
    String.ofList (ds.take point.toNat) ++ "." ++ String.ofList (ds.drop point.toNat)

/-- One digit before the point and a power of ten. -/
def scientific (d : Decimal) : String :=
  let (ds, point) := d.text
  let rest := ds.drop 1
  String.ofList (ds.take 1) ++ (if rest.isEmpty then "" else "." ++ String.ofList rest)
    ++ s!"e{point - 1}"

/-- Where the point may stand for the digits to be written around it,
and what shows that a number is no whole one. -/
structure Layout where
  pointFrom : Int
  pointTo : Int
  fraction : String

/-- Digits around the point, or a power of ten where the layout has no place for the point. -/
def write (l : Layout) (d : Decimal) : String :=
  let (_, point) := d.text
  if d.digits = 0 ∨ (l.pointFrom ≤ point ∧ point ≤ l.pointTo) then d.positional l.fraction
  else d.scientific

/-- The float nearest to a decimal, infinite above all floats. -/
def toFloat (d : Decimal) : Float :=
  let magnitude := (digitCount d.digits : Int) + d.exponent
  -- far outside the range there is no need to write the power of ten out
  if d.digits = 0 ∨ magnitude < -400 then 0.0
  else if 400 < magnitude then 1.0 / 0.0
  else Float.ofScientific d.digits (d.exponent < 0) d.exponent.natAbs

def ofFloat (x : Float) : Decimal :=
  let b := Binary.parts x
  if b.mantissa = 0 then ⟨0, 0⟩ else shortest b

end Decimal

end SceneGuard
