import SceneGuard.Model.Command
import SceneGuard.Verdict.Fault

/-!
# Notes

What rules remark on a command. A note holds what it is about; `Note.text` words it.
-/

namespace SceneGuard

/-- A remark on a command, by what it is about. -/
inductive Note (α : Type) where
  /-- The command was superseded before it ran. -/
  | superseded (command : CommandId)
  /-- The entity, or one below it, would overlap the others. -/
  | overlap (entity : EntityId) (others : List EntityId)
  /-- The entity would come close to the others. -/
  | close (others : List EntityId)
  /-- A scale has a component outside the limits. -/
  | scaleOutside (scale : Vec3 α) (min max : α)
  /-- The center of the entity would leave the zone. -/
  | leavesZone (entity zone : EntityId)
  /-- A property with limits was given something that is no number. -/
  | notNumeric (key : PropertyKey)
  /-- A property was given a number outside its limits. -/
  | valueOutside (key : PropertyKey) (value min max : α)
  /-- The command could not be checked. -/
  | fault (cause : Fault α)
  /-- A rule's own words. -/
  | remark (words : String)
  deriving DecidableEq, BEq

namespace Note

/-- A list of numbers in words. -/
def idsText (ids : List EntityId) : String :=
  "[" ++ ", ".intercalate (ids.map toString) ++ "]"

variable {α : Type} [NumberText α]

/-- Two limits in words, the way intervals are written. -/
def limitsText (min max : α) : String :=
  "[" ++ NumberText.plain min ++ ", " ++ NumberText.plain max ++ "]"

/-- A property in words: its sheet and its name. -/
def keyText (key : PropertyKey) : String := key.sheet ++ "." ++ key.name

/-- The note in words. -/
def text : Note α → String
  | .superseded command => s!"command {command} was superseded"
  | .overlap entity others => s!"entity {entity} would overlap " ++ idsText others
  | .close others => "close to " ++ idsText others
  | .scaleOutside scale min max =>
    "scale " ++ Fault.tripleText scale ++ " outside " ++ limitsText min max
  | .leavesZone entity zone => s!"entity {entity} would leave zone {zone}"
  | .notNumeric key => keyText key ++ " is not numeric"
  | .valueOutside key value min max =>
    keyText key ++ " = " ++ NumberText.plain value ++ " outside " ++ limitsText min max
  | .fault cause => cause.message
  | .remark words => words

end Note

end SceneGuard
