import SceneGuard.Model.Command

/-!
# Reset blocks

The commands that take an edit back: its members in reverse, each set to its values before. What is
superseded, added or removed has nothing to go back to and is left out. Reset commands are forced,
carry fresh numbers, and a composite takes its number after its members.
-/

namespace SceneGuard

namespace Command

variable {α : Type}

/-- The header of a reset command: a number of its own, forced, and not part of a drag. Whether
the command is superseded stays as it was. -/
def resetHeader (h : Header) (id : CommandId) : Header :=
  { h with id := id, transient := false, forced := true }

mutual

/-- The command that takes one member back, if it has something to go back to. -/
def resetMember (ids : IdSource) : Command α → Option (Command α) × IdSource
  | .single h e =>
    if h.dying || e.kind.isAddOrRemove then (none, ids)
    else
      let (id, ids) := ids.fresh
      (some (.single (resetHeader h id) e.reset), ids)
  | .composite h d ms =>
    if h.dying then (none, ids)
    else
      -- a composite without anything to take back is not there, and takes no number
      match resetMembers ids ms with
      | ([], ids) => (none, ids)
      | (block, ids) =>
        let (id, ids) := ids.fresh
        (some (.composite (resetHeader h id) d block), ids)

/-- The commands that take a list of members back, the last member first. -/
def resetMembers (ids : IdSource) : List (Command α) → List (Command α) × IdSource
  | [] => ([], ids)
  | c :: cs =>
    -- numbers go up along the block
    let (block, ids) := resetMembers ids cs
    let (own, ids) := resetMember ids c
    (block ++ own.toList, ids)

end

/-- The commands that take an edit back. The flags of the edit itself do
not matter for a composite. -/
def resetBlock (ids : IdSource) (c : Command α) : List (Command α) × IdSource :=
  match c with
  | .composite _ _ ms => resetMembers ids ms
  | .single .. =>
    let (own, ids) := resetMember ids c
    (own.toList, ids)

end Command

end SceneGuard
