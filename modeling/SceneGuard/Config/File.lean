import SceneGuard.Codec.Config
import SceneGuard.Config.Error
import SceneGuard.Toml.Read
import SceneGuard.Toml.Write

/-!
# Configuration files

Configurations are kept as TOML.
-/

namespace SceneGuard

namespace Config

/-- What TOML allows: it has no empty value, so any other that holds nothing may stand for one. -/
def tomlLatitude : Document.Latitude := { surplus := true, emptyRecord := true, emptyList := true }

def ofToml (s : String) : Except ConfigError (Config Float) :=
  match (Toml.read? s).bind (Config.ofDocument? tomlLatitude) with
  | some c => .ok c
  | none => .error .malformed

/-- The text of a configuration, with every field spelled out. -/
def toToml (c : Config Float) : String := Toml.write (c.toFields .number)

end Config

end SceneGuard
