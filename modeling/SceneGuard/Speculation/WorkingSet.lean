import SceneGuard.Speculation.Surrogate

/-!
# Working sets

The surrogates of one pass, and a pocket of snapshots. Before an entity is changed on trial its
surrogate goes into the pocket; from there it can be put back, or forgotten when the change stays.
-/

namespace SceneGuard

/-- The surrogates of a pass by entity, the pocket, and the tolerance of the tests between boxes. -/
structure WorkingSet (α : Type) where
  epsilon : α
  surrogates : Table EntityId (Surrogate α) := .empty
  /-- What was there before the first change on trial; `none` for no surrogate. -/
  pocket : Table EntityId (Option (Surrogate α)) := .empty

namespace WorkingSet

variable {α : Type}

/-- The surrogate of an entity; none when the entity is not tracked. -/
def get? (w : WorkingSet α) (id : EntityId) : Option (Surrogate α) := w.surrogates.get? id

/-- Put a surrogate at its entity, in place of the one there. -/
def add (w : WorkingSet α) (s : Surrogate α) : WorkingSet α :=
  { w with surrogates := w.surrogates.insert s.id s }

/-- Stop tracking an entity; the pocket stays. -/
def remove (w : WorkingSet α) (id : EntityId) : WorkingSet α :=
  { w with surrogates := w.surrogates.erase id }

/-- No surrogates; the pocket stays. -/
def clear (w : WorkingSet α) : WorkingSet α := { w with surrogates := .empty }

/-- Take a snapshot of an entity, unless there is one already. -/
def stash (w : WorkingSet α) (id : EntityId) : WorkingSet α :=
  if w.pocket.contains id then w
  else { w with pocket := w.pocket.insert id (w.get? id) }

/-- Put an entity back to its snapshot. Without a snapshot nothing happens. -/
def restore (w : WorkingSet α) (id : EntityId) : WorkingSet α :=
  match w.pocket.get? id with
  | none => w
  | some snapshot =>
    let w := { w with pocket := w.pocket.erase id }
    -- an empty snapshot tells that there was no surrogate
    match snapshot with
    | some s => { w with surrogates := w.surrogates.insert id s }
    | none => w.remove id

/-- Keep an entity as it is and forget its snapshot. -/
def commit (w : WorkingSet α) (id : EntityId) : WorkingSet α :=
  { w with pocket := w.pocket.erase id }

/-- Put every entity in the pocket back to its snapshot. -/
def restoreAll (w : WorkingSet α) : WorkingSet α :=
  w.pocket.keys.foldl restore w

end WorkingSet

end SceneGuard
