import SceneGuard.CommandLine

/-!
# The program

Reads the files that the arguments name, prints what `CommandLine.run` answers, and writes the file
it asks for.
-/

open SceneGuard

def readText? (path : String) : IO (Option String) := do
  try
    return some (← IO.FS.readFile path)
  catch _ =>
    return none

/-- The texts of the files that can be read, by path. -/
def readAll : List String → IO (List (String × String))
  | [] => return []
  | path :: rest => do
    let more ← readAll rest
    match ← readText? path with
    | some text => return (path, text) :: more
    | none => return more

/-- The name that the help calls the program by. -/
def programName : String := "sceneguard"

def main (args : List String) : IO UInt32 := do
  let request := CommandLine.request? args
  let files ← readAll (request.toList.flatMap CommandLine.Request.inputs)
  let r := CommandLine.run programName (fun path => files.lookup path) request
  for line in r.lines do
    IO.println line
  if let some (path, text) := r.file then
    try
      IO.FS.writeFile path text
    catch e =>
      IO.eprintln s!"cannot write {path}: {e}"
      return 1
  for line in r.after do
    IO.println line
  return r.exit.toUInt32
