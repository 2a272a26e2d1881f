import SceneGuard.CommandLine.Usage

/-!
# Requests

What the arguments of the program ask for. Arguments are taken one after the other, and the first
that makes no sense settles that they ask for nothing.
-/

namespace SceneGuard.CommandLine

/-- What a replay is told on the command line. -/
structure ReplayArgs where
  scene : String
  commands : String
  config : Option String := none
  output : Option String := none
  json : Bool := false

/-- What the program is asked to do, once its arguments are understood. -/
inductive Request where
  | replay (args : ReplayArgs)
  | checkConfig (path : String)
  | defaultConfig
  /-- Help on a task, or on the program. -/
  | help (topic : Option Usage)

/-- Arguments taken apart so far. -/
structure Parsed where
  positional : List String := []
  values : List (String × String) := []
  switches : List String := []

namespace Parsed

/-- Give a setting its value, a path and so not empty. No setting may be given twice. -/
def give? (p : Parsed) (s : Setting) (path : String) : Option Parsed :=
  if path.isEmpty || (p.values.lookup s.name).isSome then none
  else some { p with values := (s.name, path) :: p.values }

/-- Turn a switch on, once. -/
def turnOn? (p : Parsed) (s : Setting) : Option Parsed :=
  if p.switches.contains s.name then none else some { p with switches := s.name :: p.switches }

/-- Add a positional argument, a path and so not empty. -/
def push? (u : Usage) (p : Parsed) (path : String) : Option Parsed :=
  if path.isEmpty || u.arguments.length ≤ p.positional.length then none
  else some { p with positional := p.positional ++ [path] }

end Parsed

/-- A setting by its name or its letter, with the value attached to it, if there is one. -/
def setting? (u : Usage) (arg : List Char) : Option (Setting × Option String) :=
  match arg with
  | '-' :: '-' :: rest =>
    let name := String.ofList (rest.takeWhile (· != '='))
    let value := match rest.dropWhile (· != '=') with
      | [] => none
      | _ :: v => some (String.ofList v)
    (u.settings.find? fun s => s.name = name).map fun s => (s, value)
  | '-' :: c :: rest =>
    let value := match rest with
      | [] => none
      | '=' :: v => some (String.ofList v)
      | v => some (String.ofList v)
    (u.settings.find? fun s => s.short = some c).map fun s => (s, value)
  | _ => none

/-- Whether an argument is no value: a lone dash is one. -/
def looksLikeSetting (arg : String) : Bool := arg.toList.head? == some '-' && arg != "-"

/-- Whether an argument asks for help. What is attached to the letter is left aside. -/
def asksForHelp (arg : String) : Bool := arg == "--help" || arg.startsWith "-h"

/--
Take the arguments of a task apart: none if they make no sense, and otherwise all of them, or none
because there is help to be given. `waiting` is a setting without its value.
-/
def parse? (u : Usage) : List String → Option Setting → Parsed → Option (Option Parsed)
  | [], none, p => some (some p)
  | [], some _, _ => none
  | arg :: rest, some s, p =>
    if looksLikeSetting arg then none
    else
      match p.give? s arg with
      | some p => parse? u rest none p
      | none => none
  | arg :: rest, none, p =>
    -- after two dashes everything is positional
    if arg == "--" then (rest.foldlM (Parsed.push? u) p).map some
    else if !looksLikeSetting arg then
      match p.push? u arg with
      | some p => parse? u rest none p
      | none => none
    -- help goes before whatever is wrong with the arguments behind it
    else if asksForHelp arg then some none
    else
      match setting? u arg.toList with
      | none => none
      | some (s, value) =>
        match s.value, value with
        | some _, none => parse? u rest (some s) p
        | some _, some value =>
          match p.give? s value with
          | some p => parse? u rest none p
          | none => none
        | none, none =>
          match p.turnOn? s with
          | some p => parse? u rest none p
          | none => none
        | none, some _ => none

def Task.request? (t : Task) (p : Parsed) : Option Request :=
  match t, p.positional with
  | .replay, [scene, commands] =>
    some (.replay {
      scene, commands
      config := p.values.lookup "config"
      output := p.values.lookup "output"
      json := p.switches.contains "json" })
  | .checkConfig, [path] => some (.checkConfig path)
  | .defaultConfig, [] => some .defaultConfig
  | _, _ => none

/-- The help that the names of tasks ask for. A task has no tasks below it. -/
def helpRequest? : List String → Option Request
  | [] => some (.help none)
  | [name] =>
    if name == helpUsage.name then some (.help (some helpUsage))
    else (Task.ofName? name).map fun t => .help (some t.usage)
  | _ => none

def request? : List String → Option Request
  | [] => none
  | name :: args =>
    if asksForHelp name then some (.help none)
    else if name == helpUsage.name then helpRequest? args
    else do
      let t ← Task.ofName? name
      match ← parse? t.usage args none {} with
      | some p => t.request? p
      | none => return .help (some t.usage)

def Request.inputs : Request → List String
  | .replay a => [a.scene, a.commands] ++ a.config.toList
  | .checkConfig path => [path]
  | .defaultConfig | .help _ => []

end SceneGuard.CommandLine
