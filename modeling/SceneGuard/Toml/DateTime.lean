import SceneGuard.Data.Document
import SceneGuard.Text.Digits

/-!
# Dates and times in TOML

A date, a time, or a date with a time and perhaps the distance from universal time. They have no use
here beyond being well formed.
-/

namespace SceneGuard.Toml

/-- A number of so many digits between two bounds at the front of a text, and what follows it. -/
def numeral? (count lo hi : Nat) (cs : List Char) : Option (Nat × List Char) :=
  let ds := cs.take count
  let n := Digits.toNat ds
  if ds.length = count && ds.all Char.isDigit && lo ≤ n && n ≤ hi
    then some (n, cs.drop count) else none

def after? (c : Char) : List Char → Option (List Char)
  | [] => none
  | c' :: rest => if c = c' then some rest else none

def daysIn (year month : Nat) : Nat :=
  if month = 2 then if year % 4 = 0 ∧ (year % 100 ≠ 0 ∨ year % 400 = 0) then 29 else 28
  else if month ∈ [4, 6, 9, 11] then 30
  else 31

/-- What follows a date: year, month and day, with dashes between. -/
def date? (cs : List Char) : Option (List Char) := do
  let (year, cs) ← numeral? 4 0 9999 cs
  let (month, cs) ← numeral? 2 1 12 (← after? '-' cs)
  let (_, cs) ← numeral? 2 1 (daysIn year month) (← after? '-' cs)
  return cs

/-- What follows hours and minutes, with a colon between. -/
def hourMinute? (cs : List Char) : Option (List Char) := do
  let (_, cs) ← numeral? 2 0 23 cs
  let (_, cs) ← numeral? 2 0 59 (← after? ':' cs)
  return cs

/-- What follows a time: hours, minutes, seconds and perhaps a fraction.
A minute may have a leap second. -/
def time? (cs : List Char) : Option (List Char) := do
  let (_, cs) ← numeral? 2 0 60 (← after? ':' (← hourMinute? cs))
  match cs with
  | '.' :: rest => match Digits.split rest with
    -- a point without digits is not part of the time
    | ([], _) => return cs
    | (_, rest) => return rest
  | cs => return cs

/-- What follows the distance from universal time, which may be missing. -/
def offset? (cs : List Char) : Option (List Char) :=
  match cs with
  | 'Z' :: rest | 'z' :: rest => some rest
  | '+' :: rest | '-' :: rest => hourMinute? rest
  | cs => some cs

def afterDateTime? (cs : List Char) : Option (List Char) :=
  match date? cs with
  | none => time? cs
  | some rest =>
    match rest with
    | 'T' :: clock | 't' :: clock | ' ' :: clock =>
      match time? clock with
      | some rest => offset? rest
      | none => some rest
    | rest => some rest

/-- A date, a time or both: a record with the text in its one field. -/
def dateTime? (cs : List Char) : Option (Document Float × List Char) :=
  (afterDateTime? cs).map fun rest =>
    let written := cs.take (cs.length - rest.length)
    (.record [("date-time", .text (String.ofList written))], rest)

end SceneGuard.Toml
