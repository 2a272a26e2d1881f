import SceneGuard.Data.Document
import SceneGuard.Number.Text

/-!
# Writing JSON text

On one line, or with one item a line, indented by two blanks a level.
-/

namespace SceneGuard.Json

/-- The form of a character between quotes. -/
def escape (c : Char) : List Char :=
  match c with
  | '"' => ['\\', '"']
  | '\\' => ['\\', '\\']
  | '\x08' => ['\\', 'b']
  | '\x0c' => ['\\', 'f']
  | '\n' => ['\\', 'n']
  | '\r' => ['\\', 'r']
  | '\t' => ['\\', 't']
  | c =>
    if c.toNat < 0x20 then
      let ds := Nat.toDigits 16 c.toNat
      ['\\', 'u'] ++ List.replicate (4 - ds.length) '0' ++ ds
    else [c]

/-- A text in quotes, with what needs it escaped. -/
def quoted (s : String) : String := "\"" ++ String.ofList (s.toList.flatMap escape) ++ "\""

/-- Floats stand apart from whole numbers by a point or a power of ten. -/
def numberLayout : Decimal.Layout := ⟨-4, 16, ".0"⟩

/-- A float; one that is not finite has no form of its own. -/
def floatText (x : Float) : String :=
  if x.isFinite then NumberText.signed x (·.write numberLayout) else "null"

/-- Line breaks between items: none, or one with the indent of a level. -/
inductive Breaks where
  | none
  | indented (level : Nat)

namespace Breaks

/-- The layout one level further in. -/
def inner : Breaks → Breaks
  | .none => .none
  | .indented n => .indented (n + 1)

/-- What stands between two items besides the comma. -/
def text : Breaks → String
  | .none => ""
  | .indented n => "\n" ++ String.ofList (List.replicate (2 * n) ' ')

/-- What stands between a name and its value besides the colon. -/
def afterColon : Breaks → String
  | .none => ""
  | .indented _ => " "

/-- Items between brackets, each on a line of its own where lines are broken. Without items the
brackets stand together. -/
def enclose (b : Breaks) (left right : String) (items : List String) : String :=
  if items.isEmpty then left ++ right
  else left ++ b.inner.text ++ ("," ++ b.inner.text).intercalate items ++ b.text ++ right

end Breaks

mutual

/-- A document in a layout. -/
def write (b : Breaks) : Document Float → String
  | .null => "null"
  | .bool x => if x then "true" else "false"
  | .int n => toString n
  | .number x => floatText x
  | .text s => quoted s
  | .list ds => b.enclose "[" "]" (writeItems b.inner ds)
  | .record fs => b.enclose "\x7b" "\x7d" (writeFields b.inner fs)

/-- The items of a list, each written in the layout. -/
def writeItems (b : Breaks) : List (Document Float) → List String
  | [] => []
  | d :: ds => write b d :: writeItems b ds

/-- The fields of a record, each with its name before it. -/
def writeFields (b : Breaks) : List (String × Document Float) → List String
  | [] => []
  | (name, d) :: fs => (quoted name ++ ":" ++ b.afterColon ++ write b d) :: writeFields b fs

end

/-- A document on one line. -/
def compact (d : Document Float) : String := write .none d

/-- A document over several lines, two blanks for each level. -/
def pretty (d : Document Float) : String := write (.indented 0) d

end SceneGuard.Json
