import SceneGuard.Speculation.WorkingSet

/-!
# Transactions

Changes of a working set that are kept or dropped together.
-/

namespace SceneGuard

/-- A working set under change, with the entities that are to be kept or put back at the end. -/
structure Transaction (α : Type) where
  working : WorkingSet α
  /-- The entities changed, by their first change. -/
  touched : List EntityId := []

namespace Transaction

variable {α : Type}

/-- Put a surrogate at its entity and remember what was there. -/
def stage (t : Transaction α) (s : Surrogate α) : Transaction α :=
  { working := (t.working.stash s.id).add s
    touched := if t.touched.contains s.id then t.touched else t.touched ++ [s.id] }

/-- Stage surrogates one after the other. -/
def stageAll (t : Transaction α) (ss : List (Surrogate α)) : Transaction α := ss.foldl stage t

/-- The working set with the changes: the snapshots of all entities touched are forgotten. -/
def keep (t : Transaction α) : WorkingSet α := t.touched.foldl WorkingSet.commit t.working

/-- The working set without the changes; the entity changed last goes back first. -/
def drop (t : Transaction α) : WorkingSet α := t.touched.reverse.foldl WorkingSet.restore t.working

end Transaction

end SceneGuard
