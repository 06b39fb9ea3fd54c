import Switchboard.Program

/-! The program with the files that it works on. -/

open Switchboard

/-- The files that a run reads, if its arguments can be followed. -/
def filesOf : Except UsageError Invocation → List String
  | .ok i => i.model :: i.sources.map Prod.snd ++ [i.config.getD Config.fileName]
  | .error _ => []

/-- The tree with what is found under a name, if anything is. -/
def lookUp (t : FileTree) (name : String) : IO FileTree := do
  let route := Route.of [] name
  let t := (FileAction.createDirectories route.parent t).1
  try
    let contents ← IO.FS.readFile name
    return (FileAction.write route contents t).1
  catch
    | .inappropriateType .. => return (FileAction.createDirectories route t).1
    | _ => return t

/-- Writes what has changed in a tree. -/
def writeChanges (before after : FileTree) : IO Unit := do
  let old := before.list
  for (name, contents) in after.list do
    if !old.contains (name, contents) then
      match contents with
      | none => IO.FS.createDirAll name
      | some contents => IO.FS.writeFile name contents

/-- Runs the program with its arguments. -/
def main (arguments : List String) : IO UInt32 := do
  let surroundings ← IO.getEnv "TYPEMUX_CONFIG"
  let before ← (filesOf (CommandLine.parse surroundings arguments)).foldlM lookUp .empty
  let (after, outcome) := Program.run arguments surroundings [] before
  writeChanges before after
  match outcome with
  | .ok out => do
    IO.print out
    return 0
  | .error e => do
    IO.eprintln e.message
    match e with
    | .usage e => return if e.isShown then 0 else 2
    | _ => return 1
