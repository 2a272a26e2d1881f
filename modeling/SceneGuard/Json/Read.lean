import SceneGuard.Data.Outline
import SceneGuard.Json.Token

/-!
# Reading JSON text

What an outline asks for is read into a document; the rest only has to be well formed.
-/

namespace SceneGuard.Json

/-- Lists and records may stand in one another this deep, where they are read. -/
def maxDepth : Nat := 127

/-- What a token leads to when a value is passed over. -/
inductive Expected where
  | value
  /-- A comma or the end of what is open. -/
  | next

/-- What is open around a place in a text. -/
inductive Enclosing where
  | list
  | record
  deriving DecidableEq

/-- Pass over a value and all that is open around it: what follows. -/
def passOver : Expected → List Enclosing → List Token → Option (List Token)
  | .next, [], ts => some ts
  | .value, around, .text _ :: ts => passOver .next around ts
  | .value, around, .number _ :: ts => passOver .next around ts
  | .value, around, .value _ :: ts => passOver .next around ts
  | .value, around, .openList :: .closeList :: ts => passOver .next around ts
  | .value, around, .openList :: ts => passOver .value (.list :: around) ts
  | .value, around, .openRecord :: .closeRecord :: ts => passOver .next around ts
  | .value, around, .openRecord :: .text _ :: .colon :: ts => passOver .value (.record :: around) ts
  | .next, .list :: around, .comma :: ts => passOver .value (.list :: around) ts
  | .next, .list :: around, .closeList :: ts => passOver .next around ts
  | .next, .record :: around, .comma :: .text _ :: .colon :: ts =>
    passOver .value (.record :: around) ts
  | .next, .record :: around, .closeRecord :: ts => passOver .next around ts
  | _, _, _ => none

/-- The name of a field. A number that serves as one is written without escapes. -/
def name? (o : Outline) (s : Spelling) : Option String :=
  match o with
  | .numbered _ => if s.plain then s.text? else none
  | .all | .fields _ => s.text?

abbrev Fields := List (String × Document Float)

mutual

def value : Nat → Nat → Outline → List Token → Option (Document Float × List Token)
  | 0, _, _, _ => none
  | fuel + 1, depth, o, ts =>
    match ts with
    | .text s :: rest => s.text?.map fun s => (.text s, rest)
    | .number l :: rest => l.toDocument?.map fun d => (d, rest)
    | .value d :: rest => some (d, rest)
    | .openList :: .closeList :: rest => if depth = 0 then none else some (.list [], rest)
    | .openList :: rest =>
      if depth = 0 then none
      else (items fuel (depth - 1) o [] rest).map fun (ds, rest) => (.list ds, rest)
    | .openRecord :: .closeRecord :: rest => if depth = 0 then none else some (.record [], rest)
    | .openRecord :: rest =>
      if depth = 0 then none
      else (fields fuel (depth - 1) o [] rest).map fun (fs, rest) => (.record fs, rest)
    | _ => none

/-- The items of a list up to its end, after those in `acc`. -/
def items : Nat → Nat → Outline → List (Document Float) → List Token →
    Option (List (Document Float) × List Token)
  | 0, _, _, _, _ => none
  | fuel + 1, depth, o, acc, ts =>
    match value fuel depth (o.item acc.length) ts with
    | some (d, .comma :: rest) => items fuel depth o (d :: acc) rest
    | some (d, .closeList :: rest) => some ((d :: acc).reverse, rest)
    | _ => none

/-- The fields of a record up to its end that are asked for, after those in `acc`. -/
def fields : Nat → Nat → Outline → Fields → List Token → Option (Fields × List Token)
  | 0, _, _, _, _ => none
  | fuel + 1, depth, o, acc, ts =>
    match ts with
    | .text s :: .colon :: rest =>
      match name? o s with
      | none => none
      | some name =>
        let read : Option (Fields × List Token) := match o.field? name with
          | some inner =>
            (value fuel depth inner rest).map fun (d, rest) => ((name, d) :: acc, rest)
          -- what is passed over does not count against the depth
          | none => (passOver .value [] rest).map fun rest => (acc, rest)
        match read with
        | some (acc, .comma :: rest) => fields fuel depth o acc rest
        | some (acc, .closeRecord :: rest) => some (acc.reverse, rest)
        | _ => none
    | _ => none

end

/-- The document that a text spells, all of it, as far as it is asked for. -/
def read? (o : Outline) (s : String) : Option (Document Float) := do
  let ts ← tokens? s.toList
  -- every call takes a token or leads to one that does
  match ← value (2 * ts.length + 2) maxDepth o ts with
  | (d, []) => return d
  | _ => none

end SceneGuard.Json
