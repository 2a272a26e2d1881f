import SceneGuard.Data.Document
import SceneGuard.Number.Text

/-!
# Numbers in TOML

Whole numbers of 64 bits with a sign, in base ten, sixteen, eight and two, and floats. Single
underscores may stand between digits.
-/

namespace SceneGuard.Toml

/-- Digits with single underscores between them, without the underscores. -/
def digits? (isDigit : Char → Bool) : List Char → Option (List Char)
  | [] => none
  | c :: cs =>
    if !isDigit c then none
    else
      match cs with
      | [] => some [c]
      | '_' :: rest => (digits? isDigit rest).map (c :: ·)
      | rest => (digits? isDigit rest).map (c :: ·)

/-- What digits in a base stand for. -/
def inBase (base : Nat) (cs : List Char) : Nat :=
  cs.foldl (fun n c => n * base + (Digits.hex? c).getD 0) 0

/-- Digits in base ten that do not start with a needless zero. -/
def wholeDigits? (cs : List Char) : Option (List Char) := do
  let ds ← digits? Char.isDigit cs
  if ds.head? = some '0' ∧ 1 < ds.length then none else return ds

/-- A whole number, if it fits in 64 bits with a sign. -/
def bounded? (n : Int) : Option (Document Float) :=
  if Int64.minValue.toInt ≤ n ∧ n ≤ Int64.maxValue.toInt then some (.int n) else none

def isBinary (c : Char) : Bool := c == '0' || c == '1'

def isOctal (c : Char) : Bool := '0' ≤ c && c ≤ '7'

def isHex (c : Char) : Bool := (Digits.hex? c).isSome

/-- Whether there is a minus in front, and what comes after the sign. -/
def signOf (cs : List Char) : Bool × List Char :=
  match cs with
  | '-' :: rest => (true, rest)
  | '+' :: rest => (false, rest)
  | _ => (false, cs)

def whole? (cs : List Char) : Option (Document Float) :=
  match cs with
  | '0' :: 'x' :: ds => (digits? isHex ds).bind fun ds => bounded? (inBase 16 ds)
  | '0' :: 'o' :: ds => (digits? isOctal ds).bind fun ds => bounded? (inBase 8 ds)
  | '0' :: 'b' :: ds => (digits? isBinary ds).bind fun ds => bounded? (inBase 2 ds)
  | _ => do
    let (negative, ds) := signOf cs
    let n : Int := inBase 10 (← wholeDigits? ds)
    bounded? (if negative then -n else n)

def exponent? (cs : List Char) : Option Int := do
  let (negative, ds) := signOf cs
  let n : Int := inBase 10 (← digits? Char.isDigit ds)
  return if negative then -n else n

/-- A float without its sign: digits, and after them a point with digits
or a power of ten or both. -/
def unsigned? (cs : List Char) : Option Float := do
  let isPower (c : Char) : Bool := c == 'e' || c == 'E'
  let mantissa := cs.takeWhile (!isPower ·)
  let power ← match cs.dropWhile (!isPower ·) with
    | [] => if mantissa.contains '.' then some 0 else none
    | _ :: rest => exponent? rest
  let whole ← wholeDigits? (mantissa.takeWhile (· != '.'))
  let fraction ← match mantissa.dropWhile (· != '.') with
    | [] => some []
    | _ :: rest => digits? Char.isDigit rest
  return (NumberText.decimalOf whole fraction power).toFloat

/-- A float. Infinity has a name, and digits without a minus may not amount to it. -/
def float? (cs : List Char) : Option (Document Float) :=
  let (negative, ds) := signOf cs
  let sign (x : Float) : Float := if negative then -x else x
  match ds with
  | ['i', 'n', 'f'] => some (.number (sign (1.0 / 0.0)))
  | ['n', 'a', 'n'] => some (.number (sign (0.0 / 0.0)))
  -- of the two infinities only the positive one is refused
  | _ =>
    (unsigned? ds).bind fun x => if x.isFinite || negative then some (.number (sign x)) else none

def isNumeral (c : Char) : Bool :=
  c.isAlphanum || c == '_' || c == '+' || c == '-' || c == '.'

/-- A number of any form at the front of a text, and what comes after it. -/
def number? (cs : List Char) : Option (Document Float × List Char) := do
  let word := cs.takeWhile isNumeral
  let d ← whole? word <|> float? word
  return (d, cs.dropWhile isNumeral)

end SceneGuard.Toml
