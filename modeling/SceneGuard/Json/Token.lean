import SceneGuard.Json.Number

/-!
# Tokens of JSON text

The marks, texts, numbers and named values that JSON text is made of. A text or number is taken as
written: it may stand for nothing.
-/

namespace SceneGuard.Json

/-- A text as its characters were spelled, of which some may be no character at all. -/
structure Spelling where
  /-- What stands for each character; nothing does where half of a pair of escapes stands. -/
  chars : List (Option Char)
  /-- Whether there are no escapes in it. -/
  plain : Bool

def Spelling.text? (s : Spelling) : Option String := (s.chars.mapM id).map String.ofList

/-- The smallest parts of a text that mean something. -/
inductive Token where
  | openList
  | closeList
  | openRecord
  | closeRecord
  | comma
  | colon
  | text (s : Spelling)
  | number (l : Literal)
  /-- A value with a name of its own. -/
  | value (d : Document Float)

/-- The four blanks of the format, and no others. -/
def isBlank (c : Char) : Bool := c == ' ' || c == '\n' || c == '\t' || c == '\r'

/-- Four digits in base sixteen at the front of a text. -/
def unit? : List Char → Option (Nat × List Char)
  | a :: b :: c :: d :: rest => (Digits.hexToNat? [a, b, c, d]).map fun n => (n, rest)
  | _ => none

/-- The character that two units of 16 bits stand for together. -/
def pair? (high low : Nat) : Option Char :=
  if 0xD800 ≤ high ∧ high < 0xDC00 ∧ 0xDC00 ≤ low ∧ low < 0xE000 then
    some (Char.ofNat (0x10000 + (high - 0xD800) * 0x400 + (low - 0xDC00)))
  else none

/--
The character that a `\u` escape stands for, from after the `u` on. A character beyond 16 bits takes
two escapes; half of such a pair stands for nothing.
-/
def unicode? (cs : List Char) : Option (Option Char × List Char) := do
  let (n, rest) ← unit? cs
  if n < 0xD800 ∨ 0xE000 ≤ n then
    return (some (Char.ofNat n), rest)
  match rest with
  | '\\' :: 'u' :: more =>
    let (m, more) ← unit? more
    match pair? n m with
    | some c => return (some c, more)
    -- the escape that is no second half is read again, on its own
    | none => return (none, rest)
  | _ => return (none, rest)

def shortEscape? : Char → Option Char
  | '"' => some '"'
  | '\\' => some '\\'
  | '/' => some '/'
  | 'b' => some '\x08'
  | 'f' => some '\x0c'
  | 'n' => some '\n'
  | 'r' => some '\r'
  | 't' => some '\t'
  | _ => none

/--
The text up to the closing quote, and what follows it, after the characters in `acc`. `fuel` is the
length of the input at most.
-/
def spelling? : Nat → List (Option Char) → Bool → List Char → Option (Spelling × List Char)
  | 0, _, _, _ => none
  | _, _, _, [] => none
  | _, acc, plain, '"' :: rest => some (⟨acc.reverse, plain⟩, rest)
  | fuel + 1, acc, _, '\\' :: 'u' :: rest =>
    match unicode? rest with
    | none => none
    | some (c, rest) => spelling? fuel (c :: acc) false rest
  | fuel + 1, acc, _, '\\' :: c :: rest =>
    match shortEscape? c with
    | none => none
    | some c => spelling? fuel (some c :: acc) false rest
  | fuel + 1, acc, plain, c :: rest =>
    -- a backslash gets here only as the last character
    if c.toNat < 0x20 || c == '\\' then none else spelling? fuel (some c :: acc) plain rest

/--
The token at the front of a text without blanks there, and what follows it. `fuel` is the length of
the text at most.
-/
def token? (fuel : Nat) (cs : List Char) : Option (Token × List Char) :=
  match cs with
  | '[' :: rest => some (.openList, rest)
  | ']' :: rest => some (.closeList, rest)
  | '\x7b' :: rest => some (.openRecord, rest)
  | '\x7d' :: rest => some (.closeRecord, rest)
  | ',' :: rest => some (.comma, rest)
  | ':' :: rest => some (.colon, rest)
  | '"' :: rest => (spelling? fuel [] true rest).map fun (s, rest) => (.text s, rest)
  | 't' :: 'r' :: 'u' :: 'e' :: rest => some (.value (.bool true), rest)
  | 'f' :: 'a' :: 'l' :: 's' :: 'e' :: rest => some (.value (.bool false), rest)
  | 'n' :: 'u' :: 'l' :: 'l' :: rest => some (.value .null, rest)
  | cs => (number? cs).map fun (l, rest) => (.number l, rest)

/-- The tokens of a text, after those in `acc`. `fuel` is the length of the text at most. -/
def tokensFrom : Nat → List Token → List Char → Option (List Token)
  | 0, acc, cs => if cs.all isBlank then some acc.reverse else none
  | fuel + 1, acc, cs =>
    match cs.dropWhile isBlank with
    | [] => some acc.reverse
    | cs =>
      match token? (fuel + 1) cs with
      | none => none
      | some (t, rest) => tokensFrom fuel (t :: acc) rest

/-- The tokens of a text; none when some part is no token. -/
def tokens? (cs : List Char) : Option (List Token) := tokensFrom cs.length [] cs

end SceneGuard.Json
