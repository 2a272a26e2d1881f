import SceneGuard.Toml.DateTime
import SceneGuard.Toml.Number
import SceneGuard.Toml.Tables
import SceneGuard.Toml.Text

/-!
# Reading TOML
-/

namespace SceneGuard.Toml

/-- A comment up to the end of its line. -/
def skipComment? (cs : List Char) : Option (List Char) :=
  match cs with
  | '#' :: rest =>
    let after := rest.dropWhile isPlain
    if after.isEmpty || (newline? after).isSome then some after else none
  | _ => some cs

/-- Blanks, comments and line ends, as they may stand between the items of an array. -/
def skipGaps? : Nat → List Char → Option (List Char)
  | 0, _ => none
  | fuel + 1, cs => do
    let cs ← skipComment? (skipBlanks cs)
    match newline? cs with
    | some rest => skipGaps? fuel rest
    | none => return cs

/-- Arrays and inline tables may stand in one another this deep. -/
def maxDepth : Nat := 79

/-- The last part of a key, and the path to it. -/
def splitLast (path : List String) : List String × String := (path.dropLast, path.getLastD "")

mutual

/-- A value at the front of a text, with so many arrays and tables still allowed in one another. -/
def value? : Nat → Nat → Reader (Document Float)
  | 0, _, _ => none
  | fuel + 1, depth, cs =>
    match cs with
    | '"' :: _ | '\'' :: _ => (text? cs).map fun (s, rest) => (.text s, rest)
    | 't' :: 'r' :: 'u' :: 'e' :: rest => some (.bool true, rest)
    | 'f' :: 'a' :: 'l' :: 's' :: 'e' :: rest => some (.bool false, rest)
    | '[' :: rest =>
      if depth = 0 then none else (items? fuel (depth - 1) [] rest).map fun (ds, rest) =>
        (.list ds, rest)
    | '\x7b' :: rest =>
      if depth = 0 then none
      else
        match skipBlanks rest with
        | '\x7d' :: rest => some (.record [], rest)
        | rest => (pairs? fuel (depth - 1) [] rest).map fun (es, rest) =>
          (.record (documents es), rest)
    | _ => dateTime? cs <|> number? cs

/-- The items of an array up to its end, after those in `acc`. A comma may follow the last. -/
def items? : Nat → Nat → List (Document Float) → Reader (List (Document Float))
  | 0, _, _, _ => none
  | fuel + 1, depth, acc, cs =>
    match skipGaps? (cs.length + 1) cs with
    | none => none
    | some (']' :: rest) => some (acc.reverse, rest)
    | some cs =>
      match value? fuel depth cs with
      | none => none
      | some (d, rest) =>
        match skipGaps? (rest.length + 1) rest with
        | some (',' :: rest) => items? fuel depth (d :: acc) rest
        | some (']' :: rest) => some ((d :: acc).reverse, rest)
        | _ => none

/-- The pairs of an inline table up to its end, after those in `acc`. -/
def pairs? : Nat → Nat → Entries → Reader Entries
  | 0, _, _, _ => none
  | fuel + 1, depth, acc, cs =>
    match key? (skipBlanks cs) with
    | some (path, '=' :: rest) =>
      match value? fuel depth (skipBlanks rest) with
      | none => none
      | some (d, rest) =>
        let (path, name) := splitLast path
        match acc.put path name d .header, skipBlanks rest with
        | some es, ',' :: rest => pairs? fuel depth es rest
        | some es, '\x7d' :: rest => some (es, rest)
        | _, _ => none
    | _ => none

end

/-- What has been read of a text: all tables, and the header that is open. -/
structure Progress where
  root : Entries := []
  path : List String := []

/-- The rest of a line must hold nothing but a comment. -/
def endLine? (cs : List Char) : Option (List Char) := do
  let cs ← skipComment? (skipBlanks cs)
  match cs with
  | [] => return []
  | cs => newline? cs

/-- A line with something on it: a header, or a key and its value. -/
def line? (p : Progress) (cs : List Char) : Option (Progress × List Char) :=
  match cs with
  | '[' :: '[' :: rest => do
    let (path, rest) ← key? (skipBlanks rest)
    match rest with
    | ']' :: ']' :: rest =>
      let (above, name) := splitLast path
      return ({ root := ← p.root.appendTable above name, path }, ← endLine? rest)
    | _ => none
  | '[' :: rest => do
    let (path, rest) ← key? (skipBlanks rest)
    match rest with
    | ']' :: rest =>
      let (above, name) := splitLast path
      return ({ root := ← p.root.openTable above name, path }, ← endLine? rest)
    | _ => none
  | cs => do
    let (path, rest) ← key? cs
    match rest with
    | '=' :: rest =>
      let (d, rest) ← value? (2 * cs.length + 2) maxDepth (skipBlanks rest)
      let (above, name) := splitLast path
      -- the path of the open header leads to the table, and the key goes on from there
      let root ← Entries.descend false (fun origin es => es.put above name d origin) p.path
        .header p.root
      return ({ p with root }, ← endLine? rest)
    | _ => none

def lines? : Nat → Progress → List Char → Option Progress
  | 0, _, _ => none
  | fuel + 1, p, cs =>
    match skipGaps? (cs.length + 1) cs with
    | none => none
    | some [] => some p
    | some cs =>
      match line? p cs with
      | none => none
      | some (p, rest) => lines? fuel p rest

/-- A byte order mark at the very start of a text does not belong to it. -/
def skipMark (cs : List Char) : List Char :=
  match cs with
  | '\uFEFF' :: rest => rest
  | cs => cs

/-- The document of a text; none when it is not in the format. -/
def read? (s : String) : Option (Document Float) := do
  let p ← lines? (s.length + 1) {} (skipMark s.toList)
  return .record (documents p.root)

end SceneGuard.Toml
