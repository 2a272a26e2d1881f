import SceneGuard.Codec.Command
import SceneGuard.CommandLine.Request
import SceneGuard.Config.File
import SceneGuard.Json.Read
import SceneGuard.Json.Write
import SceneGuard.Replay
import SceneGuard.Rule.Catalog

/-!
# The command line

What the program is asked to do, and what it prints and writes for that. Files come in as a function
from paths to texts, so nothing here touches a disk.
-/

namespace SceneGuard.CommandLine

/-! ## Reports -/

/-- What the program does: lines to print, a file to write after them,
and lines to print after that. -/
structure Response where
  lines : List String := []
  file : Option (String × String) := none
  after : List String := []
  exit : UInt8 := 0

/-- The answer to arguments that make no sense. -/
def usageError : Response := { exit := 2 }

/-- The answer when something could not be read or does not hold together. -/
def failure : Response := { exit := 1 }

/-- What a replay prints about one edit, for programs to read. -/
def verdictDocument (index : Nat) (edit : Command Float) (o : Outcome Float) : Document Float :=
  .record
    [("index", .int index), ("command", .int edit.id.toNat), ("kind", .text edit.kind.name),
      ("approved", .bool o.approved), ("severity", .text o.severity.name),
      ("notes", .list (o.notes.map fun n => .text n.text)),
      ("fault", match o.fault with | some f => .text f.message | none => .null),
      ("executed", o.command.toDocument)]

/-- What a replay prints about one edit, for people to read. -/
def verdictLines (index : Nat) (edit : Command Float) (o : Outcome Float) : List String :=
  let decision := if o.approved then "approved" else "rejected"
  let executed := max o.command.members.length 1
  [s!"#{index} {edit.kind.name} {edit.id}: {decision} " ++
      s!"({o.severity.label}, {executed} command(s) executed)"]
    ++ (o.notes.map fun n => "    " ++ n.text)
    ++ (o.fault.toList.map fun f => "    fault: " ++ f.message)

def stepLines (json : Bool) (index : Nat) (s : ReplayStep Float Unit) : List String :=
  if json then [Json.compact (verdictDocument index s.edit s.validation.outcome)]
  else verdictLines index s.edit s.validation.outcome

/-- A binding in one line: its kinds, its property and its rules. -/
def bindingLine (b : Binding Float Unit) : String :=
  let property := match b.property with
    | some key => " [" ++ Note.keyText key ++ "]"
    | none => ""
  ", ".intercalate (b.kinds.map (·.name)) ++ property ++ " -> " ++ ", ".intercalate
    b.checklist.names

/-! ## Requests -/

/-- Read a configuration; without a path it is the standard one. -/
def loadConfig (read : String → Option String) : Option String → Except ConfigError (Config Float)
  | none => .ok .standard
  | some path =>
    match read path with
    | none => .error (.unreadable path)
    | some text => Config.ofToml text

/-- The commands that a text spells, a list of them. -/
def commandsOfText? (ids : IdSource) (text : String) : Option (List (Command Float)) × IdSource :=
  match Json.read? .all text with
  | some d => Command.membersOfDocument ids d
  | none => (none, ids)

/-- The scene in a text; none when the text holds none. -/
def sceneOfText? (text : String) : Option (Scene Float) :=
  (Json.read? Scene.outline text).bind Scene.ofDocument?

/-- Run a replay on texts read through `read`; none when one of them is missing or makes no sense,
and when a pass takes too many turns. -/
def replay? (read : String → Option String) (args : ReplayArgs) : Option Response := do
  let scene ← (← read args.scene) |> sceneOfText?
  let (commands, ids) := commandsOfText? {} (← read args.commands)
  let commands ← commands
  let config ← (loadConfig read args.config).toOption
  let routing ← (Catalog.builtin.routing config).toOption
  let v : Validator Float Unit := { routing, config }
  -- the numbers that the commands carry are reserved before the first pass
  let start : Replay Float Unit := { scene, session := .fresh, ids, memory := () }
  let r ← start.run? (v.validate Validator.ampleBudget) commands
  let rejected := (r.steps.filter fun s => !s.validation.outcome.approved).length
  let summary :=
    s!"{commands.length} edit(s), {rejected} rejected, " ++
      s!"{r.scene.entities.size} entities in final scene"
  return {
    lines := (r.steps.zipIdx.flatMap fun (s, i) => stepLines args.json i s)
      ++ if args.json then [] else [summary]
    file := args.output.map fun path => (path, Json.pretty r.scene.toDocument)
    after := args.output.toList.flatMap fun path => if args.json then []
      else ["Wrote scene to " ++ path] }

/-- Report on what a configuration amounts to. -/
def checkConfig? (read : String → Option String) (path : String) : Option Response := do
  let config ← (loadConfig read (some path)).toOption
  let routing : Routing Float Unit ← (Catalog.builtin.routing config).toOption
  let checking := if config.ruleChecking then "on" else "off"
  let epsilon := NumberText.plain config.collision.epsilon
  return {
    lines :=
      [s!"rule checking: {checking}",
        s!"collision: epsilon {epsilon}, surrogates {config.collision.useSurrogates}"]
      ++ (if config.bindings.isEmpty then ["no bindings configured, using the default set"] else [])
      ++ routing.bindings.map bindingLine }

/-- The default configuration, with its bindings spelled out. -/
def defaultConfig : Response :=
  let config : Config Float := { Config.standard with bindings := BindingConfig.defaults }
  -- the text ends with a line end of its own
  { lines := (config.toToml.splitOn "\n").dropLast }

def help (program : String) : Option Usage → Response
  | none => { lines := overview program }
  | some u => { lines := u.help program }

/-- What the program of a name does for a request, or for arguments that are none. -/
def run (program : String) (read : String → Option String) : Option Request → Response
  | none => usageError
  | some (.replay a) => (replay? read a).getD failure
  | some (.checkConfig path) => (checkConfig? read path).getD failure
  | some .defaultConfig => defaultConfig
  | some (.help topic) => help program topic

end SceneGuard.CommandLine
