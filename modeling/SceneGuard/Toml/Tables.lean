import SceneGuard.Data.Document

/-!
# Tables in TOML

A TOML text fills tables bit by bit. How a table came about decides how it may be added to: a table
with a header of its own has none again, and dotted keys extend only what dotted keys made.
-/

namespace SceneGuard.Toml

/-- How a table came about. -/
inductive Origin where
  /-- On the way to a table below it. -/
  | implied
  /-- By a header of its own. -/
  | header
  /-- By a dotted key. -/
  | dotted
  deriving DecidableEq

/-- A part of a file under construction. What a header or a dotted key has opened is told apart
from what a value closed. -/
inductive Node where
  | value (d : Document Float)
  | table (origin : Origin) (entries : List (String × Node))
  /-- The tables of one repeated header. -/
  | tables (all : List (List (String × Node)))

abbrev Entries := List (String × Node)

namespace Entries

/-- The node at a key. -/
def get? (name : String) : Entries → Option Node
  | [] => none
  | (n, node) :: rest => if n = name then some node else get? name rest

/-- Put a node at a key: in the place of the one there, or at the end. -/
def set (name : String) (node : Node) : Entries → Entries
  | [] => [(name, node)]
  | (n, old) :: rest => if n = name then (n, node) :: rest else (n, old) :: set name node rest

/--
Change the table that a path leads to. Tables that are missing on the way are made; of repeated
tables the last is meant. `dotted` tells a path within a key from the path of a header.
-/
def descend (dotted : Bool) (f : Origin → Entries → Option Entries) :
    List String → Origin → Entries → Option Entries
  | [], origin, es => f origin es
  | name :: path, _, es =>
    match es.get? name with
    | none => do
      let origin := if dotted then .dotted else .implied
      let made ← descend dotted f path origin []
      return es.set name (.table origin made)
    | some (.value _) => none
    | some (.table origin inner) =>
      -- a dotted key must not add to a table that has a header of its own
      if dotted && origin == .header then none
      else do
        let made ← descend dotted f path origin inner
        return es.set name (.table origin made)
    | some (.tables all) =>
      match all.reverse with
      | [] => none
      | last :: before => do
        let made ← descend dotted f path .header last
        return es.set name (.tables (made :: before).reverse)

/-- Begin the table of a header. -/
def openTable (path : List String) (name : String) (root : Entries) : Option Entries :=
  descend false (fun _ es =>
    match es.get? name with
    | none => some (es.set name (.table .header []))
    -- a table known from those below it gets its header late
    | some (.table .implied inner) => some (es.set name (.table .header inner))
    | some _ => none) path .header root

/-- Begin another table of a repeated header. -/
def appendTable (path : List String) (name : String) (root : Entries) : Option Entries :=
  descend false (fun _ es =>
    match es.get? name with
    | none => some (es.set name (.tables [[]]))
    | some (.tables all) => some (es.set name (.tables (all ++ [[]])))
    | some _ => none) path .header root

/-- Put a value at a dotted key, which must be new. -/
def put (path : List String) (name : String) (d : Document Float) (origin : Origin) (es : Entries) :
    Option Entries :=
  descend true (fun origin es =>
    -- the table at the end of a path must have come about by dotted keys, too
    if !path.isEmpty && origin != .dotted then none
    else
      match es.get? name with
      | none => some (es.set name (.value d))
      | some _ => none) path origin es

end Entries

mutual

/-- A finished part of the file. Where it came from does not matter any more. -/
def Node.toDocument : Node → Document Float
  | .value d => d
  | .table _ es => .record (documents es)
  | .tables all => .list (records all)

def documents : List (String × Node) → List (String × Document Float)
  | [] => []
  | (name, node) :: rest => (name, node.toDocument) :: documents rest

def records : List (List (String × Node)) → List (Document Float)
  | [] => []
  | es :: rest => .record (documents es) :: records rest

end

end SceneGuard.Toml
