import SceneGuard.Text.Quoted

/-!
# Errors of a configuration

Why a configuration cannot be put to work.
-/

namespace SceneGuard

/-- What is wrong with a configuration. Everything is refused when it is loaded, so that no pass
meets an unknown rule. -/
inductive ConfigError where
  | unknownRule (name : String)
  | unknownCommandKind (name : String)
  /-- A binding for these rules names no kind of command. -/
  | noCommands (rules : List String)
  /-- The text is no configuration. -/
  | malformed
  /-- There is no such file to read. -/
  | unreadable (path : String)
  deriving DecidableEq, Repr

namespace ConfigError

/-- The error in words, as the program prints it. -/
def message : ConfigError → String
  | .unknownRule name => "unknown rule: " ++ name
  | .unknownCommandKind name => "unknown command kind: " ++ name
  | .noCommands rules =>
    "invalid configuration: binding for rules " ++ Quoted.list rules ++ " lists no commands"
  | .malformed => "invalid configuration: not in the form of a configuration"
  | .unreadable path => "failed to read configuration " ++ path

end ConfigError

end SceneGuard
