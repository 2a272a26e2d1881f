/-!
# Usage

What the program can be asked to do, with the arguments of each task, and the help on it.
-/

namespace SceneGuard.CommandLine

/-- An argument that is known by its place. -/
structure Argument where
  label : String
  about : String

/-- An argument that is known by its name. -/
structure Setting where
  name : String
  /-- A letter that may stand for the name. -/
  short : Option Char := none
  /-- What its value is called; none for a switch. -/
  value : Option String := none
  about : String

/-- What a task says about itself in its help. -/
structure Usage where
  name : String
  about : String
  arguments : List Argument := []
  settings : List Setting := []
  /-- Whether help can be asked for among the arguments. -/
  helpful : Bool := true

/-! ## Help -/

/-- Two columns, the second of which begins in one place. -/
def columns (rows : List (String × String)) : List String :=
  let width := (rows.map fun row => row.1.length).foldl max 0
  rows.map fun (left, right) => "  " ++ String.ofList (left.toList.rightpad width ' ') ++ "  " ++
    right

/-- Lines under a heading, and an empty line before it; nothing without lines. -/
def titled (title : String) (lines : List String) : List String :=
  if lines.isEmpty then [] else ["", title ++ ":"] ++ lines

/-- A setting as it is written on the command line. -/
def Setting.label (s : Setting) : String :=
  let short := match s.short with
    | some c => s!"-{c}, "
    | none => "    "
  let value := match s.value with
    | some v => s!" <{v}>"
    | none => ""
  short ++ "--" ++ s.name ++ value

def helpSetting : Setting := { name := "help", short := some 'h', about := "Print help" }

def Usage.help (u : Usage) (program : String) : List String :=
  let form := [program, u.name] ++ (if u.settings.isEmpty then [] else ["[OPTIONS]"])
    ++ u.arguments.map (·.label)
  let settings := u.settings ++ if u.helpful then [helpSetting] else []
  [u.about, "", "Usage: " ++ " ".intercalate form]
    ++ titled "Arguments" (columns (u.arguments.map fun a => (a.label, a.about)))
    ++ titled "Options" (columns (settings.map fun s => (s.label, s.about)))

/-! ## Tasks -/

/-- The tasks of the program, each with its own arguments. -/
inductive Task where
  | replay
  | checkConfig
  | defaultConfig
  deriving DecidableEq, Repr

namespace Task

def all : List Task := [.replay, .checkConfig, .defaultConfig]

def usage : Task → Usage
  | .replay =>
    { name := "replay"
      about := "Validate and apply a list of commands, one edit at a time"
      arguments :=
        [{ label := "<SCENE>", about := "Scene JSON file" },
          { label := "<COMMANDS>", about := "JSON array of commands" }]
      settings :=
        [{ name := "config", short := some 'c', value := some "CONFIG"
           about := "Rule configuration (TOML); built-in defaults when omitted" },
          { name := "output", short := some 'o', value := some "OUTPUT"
            about := "Write the resulting scene here" },
          { name := "json", about := "Print one JSON verdict per edit instead of text" }] }
  | .checkConfig =>
    { name := "check-config"
      about := "Parse a configuration and list the rule bindings it produces"
      arguments := [{ label := "<CONFIG>", about := "Rule configuration (TOML)" }] }
  | .defaultConfig =>
    { name := "default-config"
      about := "Print the default configuration with its rule bindings spelled out" }

def ofName? (name : String) : Option Task := all.find? fun t => t.usage.name = name

end Task

/-- The task of telling about the others. -/
def helpUsage : Usage :=
  { name := "help"
    about := "Print this message or the help of the given subcommand(s)"
    arguments := [{ label := "[COMMAND]...", about := "Print help for the subcommand(s)" }]
    helpful := false }

def overview (program : String) : List String :=
  let usages := Task.all.map Task.usage ++ [helpUsage]
  ["Validate recorded scene edits against a rule configuration", "",
    "Usage: " ++ program ++ " <COMMAND>"]
    ++ titled "Commands" (columns (usages.map fun u => (u.name, u.about)))
    ++ titled "Options" (columns [(helpSetting.label, helpSetting.about)])

end SceneGuard.CommandLine
