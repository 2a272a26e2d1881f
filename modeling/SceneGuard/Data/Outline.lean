/-!
# Outlines

An outline says which parts of a document are asked for. A reader passes over the others: they have
to be well formed, and may hold what no document can.
-/

namespace SceneGuard

/-- What a reader asks for. What is not asked for is parsed, and then dropped. -/
inductive Outline where
  /-- All of it. -/
  | all
  /-- Some fields of a record, or the items of a list that stands for it,
  in the order of the fields. -/
  | fields (known : List (String × Outline))
  /-- Every field of a record whose names are numbers. -/
  | numbered (entry : Outline)

namespace Outline

/-- What is asked for of a field; none for one that is passed over. -/
def field? (o : Outline) (name : String) : Option Outline :=
  match o with
  | .all => some .all
  | .fields known => known.lookup name
  | .numbered entry => some entry

/-- What is asked for of the item at a place in a list. -/
def item (o : Outline) (place : Nat) : Outline :=
  match o with
  | .fields known => (known[place]?.map (·.2)).getD .all
  | .all | .numbered _ => .all

end Outline

end SceneGuard
