/-!
# Identifiers

Entities and commands are told apart by 64-bit numbers. Entity numbers come with the scene; command
numbers are handed out by an `IdSource`, which stays above every number it has seen in a file, the
last one there is apart.
-/

namespace SceneGuard

/-- The number of an entity; scenes bring their own. -/
abbrev EntityId := UInt64

/-- The number of a command, unique as long as its source has not come to its end. -/
abbrev CommandId := UInt64

/-- Where command numbers come from: the number handed out next. -/
structure IdSource where
  next : CommandId := 1
  deriving DecidableEq, Repr

namespace IdSource

/-- The number handed out next, and the source after it.
After the last number the count starts over. -/
def fresh (s : IdSource) : CommandId × IdSource := (s.next, ⟨s.next + 1⟩)

/-- The number after `id`; the last number has none after it. -/
def after (id : CommandId) : CommandId :=
  if id = 0xFFFFFFFFFFFFFFFF then id else id + 1

/-- The source after `id` was read from a file: numbers up to `id` are not handed out any more. -/
def reserve (s : IdSource) (id : CommandId) : IdSource :=
  ⟨if s.next < after id then after id else s.next⟩

end IdSource

end SceneGuard
