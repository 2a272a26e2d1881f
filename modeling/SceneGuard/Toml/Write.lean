import SceneGuard.Data.Document
import SceneGuard.Number.Text
import SceneGuard.Toml.Text

/-!
# Writing TOML

A record becomes a table: its plain values first, then a header for each record in it and for each
record of a list of such. A text stands in the quotes that spare it its escapes.
-/

namespace SceneGuard.Toml

/-! ## Texts -/

/-- Characters that only an escape can write, in any text. -/
def isControl (c : Char) : Bool := (c.toNat ≤ 0x1F && c != '\t' && c != '\n') || c.toNat == 0x7F

/-- The longest run of a character, after a run of `run` and a longest one of `best` so far. -/
def longestRun (q : Char) : List Char → Nat → Nat → Nat
  | [], run, best => max run best
  | c :: cs, run, best =>
    if c == q then longestRun q cs (run + 1) best else longestRun q cs 0 (max run best)

/-- The four ways to quote a text, by how many quotes and of which kind. -/
inductive Quotes where
  | basic
  | literal
  | basicLines
  | literalLines
  deriving DecidableEq

namespace Quotes

/--
The quotes that spare a text its escapes, as far as there are such: double ones, single ones, three
double ones and three single ones, in this order. A line end takes quotes for several lines.
-/
def forText (cs : List Char) : Quotes :=
  let controls := cs.any isControl
  let escapes := cs.contains '\\'
  let lines := cs.contains '\n'
  let double := longestRun '"' cs 0 0
  let single := longestRun '\'' cs 0 0
  if !controls && !escapes && double == 0 && !lines then .basic
  else if !controls && single == 0 && !lines then .literal
  else if !controls && !escapes && double ≤ 2 then .basicLines
  else if !controls && single ≤ 2 then .literalLines
  -- no quotes spare the text all escapes
  else if lines then .basicLines
  else .basic

/-- The quotes as they are written. -/
def mark : Quotes → String
  | .basic => "\""
  | .literal => "'"
  | .basicLines => "\"\"\""
  | .literalLines => "'''"

/-- Whether the text may go over several lines. -/
def overLines : Quotes → Bool
  | .basicLines | .literalLines => true
  | .basic | .literal => false

/-- Whether nothing is escaped between the quotes. -/
def isLiteral : Quotes → Bool
  | .literal | .literalLines => true
  | .basic | .basicLines => false

end Quotes

/-- A character of a basic text that is no double quote;
over several lines a line end stands as it is. -/
def escapeChar (overLines : Bool) (c : Char) : List Char :=
  match c with
  | '\x08' => ['\\', 'b']
  | '\t' => ['\\', 't']
  | '\n' => if overLines then ['\n'] else ['\\', 'n']
  | '\x0c' => ['\\', 'f']
  | '\r' => ['\\', 'r']
  | '\\' => ['\\', '\\']
  | c =>
    if isControl c then
      let ds := (Nat.toDigits 16 c.toNat).map Char.toUpper
      ['\\', 'u'] ++ List.replicate (4 - ds.length) '0' ++ ds
    else [c]

/--
A basic text. Over several lines up to two double quotes may stand in a row, and `run` counts those
before the text; on one line none may.
-/
def escaped (overLines : Bool) : Nat → List Char → List Char
  | _, [] => []
  | run, c :: cs =>
    if c == '"' then
      if overLines && run < 2 then '"' :: escaped overLines (run + 1) cs
      else ['\\', '"'] ++ escaped overLines 0 cs
    else escapeChar overLines c ++ escaped overLines 0 cs

/-- A text in quotes. A line end after the opening quotes is no part of it. -/
def quoted (s : String) : String :=
  let cs := s.toList
  let quotes := Quotes.forText cs
  let opening := quotes.mark ++ if quotes.overLines && cs.contains '\n' then "\n" else ""
  let body := if quotes.isLiteral then s else String.ofList (escaped quotes.overLines 0 cs)
  opening ++ body ++ quotes.mark

/-- A name as a key: bare where it may be, else in quotes. -/
def keyText (s : String) : String :=
  if !s.isEmpty && s.toList.all isBare then s else quoted s

/-! ## Values and tables -/

def floatText (x : Float) : String :=
  if x.isNaN then (if Binary.isNegative x then "-nan" else "nan")
  else NumberText.signed x (·.positional ".0")

mutual

/-- A document within one line, as values and the items of lists are written. -/
def inline : Document Float → String
  | .null => ""
  | .bool b => if b then "true" else "false"
  | .int n => toString n
  | .number x => floatText x
  | .text s => quoted s
  | .list ds => "[" ++ ", ".intercalate (inlineItems ds) ++ "]"
  | .record [] => "\x7b\x7d"
  | .record fs => "\x7b " ++ ", ".intercalate (inlineFields fs) ++ " \x7d"

def inlineItems : List (Document Float) → List String
  | [] => []
  | d :: ds => inline d :: inlineItems ds

def inlineFields : List (String × Document Float) → List String
  | [] => []
  | (name, d) :: fs => (keyText name ++ " = " ++ inline d) :: inlineFields fs

end

/-- Whether a document is written with a header of its own. -/
def hasHeader : Document Float → Bool
  | .record _ => true
  | .list (.record _ :: _) => true
  | _ => false

/-- The lines of the plain values of a table. -/
def valueLines (fs : List (String × Document Float)) : List String :=
  -- an empty value cannot be written, and so its field is left out
  (fs.filter fun f => !hasHeader f.2 && (match f.2 with | .null => false | _ => true)).map fun f =>
    keyText f.1 ++ " = " ++ inline f.2

/-- The keys of a header, with points between them. -/
def headerText (path : List String) : String := ".".intercalate (path.map keyText)

mutual

/-- The blocks of lines that a document with headers takes, each with its header. -/
def blocks (path : List String) : Document Float → List (List String)
  | .record fs => (("[" ++ headerText path ++ "]") :: valueLines fs) :: fieldBlocks path fs
  | .list ds => itemBlocks path ds
  | _ => []

def fieldBlocks (path : List String) : List (String × Document Float) → List (List String)
  | [] => []
  | (name, d) :: fs => blocks (path ++ [name]) d ++ fieldBlocks path fs

def itemBlocks (path : List String) : List (Document Float) → List (List String)
  | [] => []
  | .record fs :: ds =>
    ((("[[" ++ headerText path ++ "]]") :: valueLines fs) :: fieldBlocks path fs) ++
      itemBlocks path ds
  | _ :: ds => itemBlocks path ds

end

/-- The text of a record: blocks with an empty line between them. -/
def write (fs : List (String × Document Float)) : String :=
  let first := valueLines fs
  let all := (if first.isEmpty then [] else [first]) ++ fieldBlocks [] fs
  "\n".intercalate (all.map fun block => String.join (block.map (· ++ "\n")))

end SceneGuard.Toml
