import SceneGuard.Text.Digits

/-!
# Texts and keys in TOML

Basic texts have escapes, literal ones do not, and both come on one line or on several. A key is a
bare word or a text on one line, and may be a path of such with points between.
-/

namespace SceneGuard.Toml

/-- A reader takes something from the front of a text and leaves the rest. -/
abbrev Reader (β : Type) := List Char → Option (β × List Char)

/-- The blanks within a line. -/
def isBlank (c : Char) : Bool := c == ' ' || c == '\t'

/-- The text from its first character that is no blank. -/
def skipBlanks (cs : List Char) : List Char := cs.dropWhile isBlank

/-- Characters that may stand as they are in a text or a comment. -/
def isPlain (c : Char) : Bool := c == '\t' || (0x20 ≤ c.toNat && c.toNat != 0x7F)

/-- The text after a line end, which is one character or two. -/
def newline? : List Char → Option (List Char)
  | '\n' :: rest => some rest
  | '\r' :: '\n' :: rest => some rest
  | _ => none

/-- The character with a number, given by digits in base sixteen. -/
def scalarChar? (digits : List Char) : Option Char := do
  let n ← Digits.hexToNat? digits
  if n < 0xD800 ∨ (0xE000 ≤ n ∧ n < 0x110000) then some (Char.ofNat n) else none

/-- The character that an escape stands for, from after the backslash on. -/
def escape? : Reader Char
  | 'b' :: rest => some ('\x08', rest)
  | 't' :: rest => some ('\t', rest)
  | 'n' :: rest => some ('\n', rest)
  | 'f' :: rest => some ('\x0c', rest)
  | 'r' :: rest => some ('\r', rest)
  | '"' :: rest => some ('"', rest)
  | '\\' :: rest => some ('\\', rest)
  | 'u' :: a :: b :: c :: d :: rest => (scalarChar? [a, b, c, d]).map fun ch => (ch, rest)
  | 'U' :: a :: b :: c :: d :: e :: f :: g :: h :: rest =>
    (scalarChar? [a, b, c, d, e, f, g, h]).map fun ch => (ch, rest)
  | _ => none

/-- A basic text on one line, from after its opening quote on. -/
def basic? : Nat → List Char → Reader String
  | 0, _, _ => none
  | fuel + 1, acc, cs =>
    match cs with
    | [] => none
    | '"' :: rest => some (String.ofList acc.reverse, rest)
    | '\\' :: rest =>
      match escape? rest with
      | some (c, rest) => basic? fuel (c :: acc) rest
      | none => none
    | c :: rest => if isPlain c then basic? fuel (c :: acc) rest else none

/-- A literal text on one line, from after its opening quote on. -/
def literal? : List Char → Reader String
  | _, [] => none
  | acc, '\'' :: rest => some (String.ofList acc.reverse, rest)
  | acc, c :: rest => if isPlain c then literal? (c :: acc) rest else none

/-- Quotes at the end of a text on several lines: the last three close it,
and up to two belong to it. -/
def closing? (quote : Char) (cs : List Char) : Option (Nat × List Char) :=
  let quotes := (cs.takeWhile (· == quote)).length
  if quotes < 3 then none
  else
    let own := min (quotes - 3) 2
    some (own, cs.drop (own + 3))

def skipLines : List Char → List Char
  | '\n' :: rest => skipLines rest
  | '\r' :: '\n' :: rest => skipLines rest
  | c :: rest => if isBlank c then skipLines rest else c :: rest
  | [] => []

/-- What follows a backslash at the end of a line: all blanks and line ends are skipped. -/
def continued? (cs : List Char) : Option (List Char) := (newline? (skipBlanks cs)).map skipLines

/-- A text on several lines, from after its opening quotes on. Literal ones know no escapes. -/
def multiline? (quote : Char) (escapes : Bool) : Nat → List Char → Reader String
  | 0, _, _ => none
  | fuel + 1, acc, cs =>
    match closing? quote cs with
    | some (own, rest) => some (String.ofList (acc.reverse ++ List.replicate own quote), rest)
    | none =>
      match newline? cs with
      -- however a line ends, the text has one character for it
      | some rest => multiline? quote escapes fuel ('\n' :: acc) rest
      | none =>
        match cs with
        | [] => none
        | c :: rest =>
          if escapes && c == '\\' then
            match continued? rest with
            | some rest => multiline? quote escapes fuel acc rest
            | none =>
              match escape? rest with
              | some (c, rest) => multiline? quote escapes fuel (c :: acc) rest
              | none => none
          else if isPlain c then multiline? quote escapes fuel (c :: acc) rest
          else none

/-- A line end right after the opening quotes is no part of the text. -/
def skipFirstNewline (cs : List Char) : List Char := (newline? cs).getD cs

def text? (cs : List Char) : Option (String × List Char) :=
  let fuel := cs.length + 1
  match cs with
  | '"' :: '"' :: '"' :: rest => multiline? '"' true fuel [] (skipFirstNewline rest)
  | '\'' :: '\'' :: '\'' :: rest => multiline? '\'' false fuel [] (skipFirstNewline rest)
  | '"' :: rest => basic? fuel [] rest
  | '\'' :: rest => literal? [] rest
  | _ => none

/-- The characters of a key without quotes. -/
def isBare (c : Char) : Bool := c.isAlphanum || c == '_' || c == '-'

def simpleKey? (cs : List Char) : Option (String × List Char) :=
  match cs with
  | '"' :: rest => basic? (cs.length + 1) [] rest
  | '\'' :: rest => literal? [] rest
  | _ =>
    let word := cs.takeWhile isBare
    if word.isEmpty then none else some (String.ofList word, cs.dropWhile isBare)

/-- A key has this many parts at most. -/
def maxParts : Nat := 79

/-- A key of so many parts at most: simple keys with points between.
Blanks may stand around the points. -/
def parts? : Nat → Reader (List String)
  | 0, _ => none
  | parts + 1, cs => do
    let (name, rest) ← simpleKey? cs
    match skipBlanks rest with
    | '.' :: rest =>
      let (path, rest) ← parts? parts (skipBlanks rest)
      return (name :: path, rest)
    | rest => return ([name], rest)

def key? : Reader (List String) := parts? maxParts

end SceneGuard.Toml
