/-!
# Documents

A document is what a file holds before anyone asks what it means: the common ground of the text
formats that scenes and configurations are kept in. Whole numbers and scalars stay apart, and a
record keeps its fields in the order written, repeated ones included.
-/

namespace SceneGuard

/-- A file as it was parsed, before it is known what it is for. -/
inductive Document (α : Type) where
  | null
  | bool (b : Bool)
  | int (n : Int)
  | number (x : α)
  | text (s : String)
  | list (items : List (Document α))
  | record (fields : List (String × Document α))

namespace Document

variable {α β : Type}

/-- What a record says about one field. -/
inductive Field (α : Type) where
  | absent
  | given (d : Document α)
  | repeated

/-- What a record says about a name. Two fields of one name are not told apart, and count as
repeated. -/
def field (name : String) (fields : List (String × Document α)) : Field α :=
  match fields.filter fun f => f.1 = name with
  | [] => .absent
  | [(_, d)] => .given d
  | _ => .repeated

namespace Field

/-- A field that has to be there. -/
def required (read : Document α → Option β) : Field α → Option β
  | .given d => read d
  | .absent | .repeated => none

/-- A field that may be left out, for a default. -/
def orElse (default : β) (read : Document α → Option β) : Field α → Option β
  | .absent => some default
  | .given d => read d
  | .repeated => none

/-- A field that may be left out or empty. -/
def nullable (read : Document α → Option β) : Field α → Option (Option β)
  | .absent | .given .null => some none
  | .given d => (read d).map some
  | .repeated => none

end Field

/-- What a format allows where a document can be written in several ways. -/
structure Latitude where
  /-- A list that stands for a record may go on after the last field. -/
  surplus : Bool := false
  /-- An empty record may stand for the content of a choice that has none. -/
  emptyRecord : Bool := false
  /-- An empty list may stand for the content of a choice that has none. -/
  emptyList : Bool := false

/-- Nothing beyond what every format allows. -/
def Latitude.strict : Latitude := {}

/--
The fields of a record in a given order. A record may also be written as a list of its fields in
that order, with any number left out at the end.
-/
def fields? (l : Latitude) (names : List String) : Document α → Option (String → Field α)
  | .record fs => some fun name => field name fs
  | .list items =>
    if names.length < items.length && !l.surplus then none
    else
      let fs := names.zip items
      some fun name => field name fs
  | _ => none

/-- A truth value, and nothing that might stand for one. -/
def asBool? : Document α → Option Bool
  | .bool b => some b
  | _ => none

/-- A text, and nothing that could be written as one. -/
def asText? : Document α → Option String
  | .text s => some s
  | _ => none

/-- A list, each item read the same way; the first that fails fails the list. -/
def asList? (read : Document α → Option β) : Document α → Option (List β)
  | .list items => items.mapM read
  | _ => none

/-- The entries of a record that is used as a map. -/
def asMap? (read : String → Document α → Option β) : Document α → Option (List β)
  | .record fs => fs.mapM fun (name, d) => read name d
  | _ => none

/-- Whether a document stands for the content of a choice that has none. -/
def isHollow (l : Latitude) : Document α → Bool
  | .null => true
  | .record [] => l.emptyRecord
  | .list [] => l.emptyList
  | _ => false

/-- The name of a choice without content, written as such or as a record with that one field. -/
def asName? (l : Latitude) : Document α → Option String
  | .text s => some s
  | .record [(s, d)] => if d.isHollow l then some s else none
  | _ => none

/-- A whole number that fits without a sign. Numbers with a fraction do not count, even whole
ones. -/
def asUInt64? : Document α → Option UInt64
  | .int n => if 0 ≤ n ∧ n < UInt64.size then some (UInt64.ofNat n.toNat) else none
  | _ => none

/-- A whole number that fits with a sign. -/
def asInt64? : Document α → Option Int64
  | .int n =>
    if Int64.minValue.toInt ≤ n ∧ n ≤ Int64.maxValue.toInt then some (Int64.ofInt n) else none
  | _ => none

end Document

end SceneGuard
