import Switchboard.Emission.FileSet
import Switchboard.FileTree.Action

/-! Writing a set of generated files. All files are written to a directory of their own first, and
moved into place one by one when that has succeeded. -/

namespace Switchboard.FileSet

open FileAction

/-- The contents to be written with their paths, those of the index last. -/
def outputs (s : FileSet) (index : String) : List (String × String) :=
  s.files.map (fun f => (f.path, f.contents)) ++ [(Emission.indexPath, index)]

/-- Writes a file and makes the directories that it is in. -/
def writeFile (r : Route) (contents : String) : FileAction Unit := do
  createDirectories r.parent
  write r contents

/-- Moves a file and makes the directories that it comes to be in. -/
def promoteFile (source target : Route) : FileAction Unit := do
  createDirectories target.parent
  move source target

def stage (directory : Route) : List (String × String) → FileAction Unit
  | [] => pure ()
  | (path, contents) :: rest => do
    writeFile (directory.join path) contents
    stage directory rest

/-- Moves files from below one directory to below another one. -/
def promote (source target : Route) : List (String × String) → FileAction Unit
  | [] => pure ()
  | (path, _) :: rest => do
    promoteFile (source.join path) (target.join path)
    promote source target rest

/-- Makes a directory with a new name in a directory. The name is none of those that are given. -/
def createStaging (directory : Route) (avoided : List String) : FileAction String := do
  let place ← ask directory.place
  match ← ask fun t => .ok (t.at? place) with
  | some (.directory entries) =>
    match freshName? (SortedMap.keys entries ++ avoided) with
    | some name => do
      set (some .empty) (place ++ [name])
      pure name
    | none => fail .exists
  | _ => fail .notDirectory

/-- Writes contents below a directory by way of a staging directory, which is gone afterwards. No
path goes through it. -/
def install (target : Route) (contents : List (String × String)) : FileAction Unit := do
  createDirectories target
  let name ← createStaging target (contents.flatMap fun (path, _) => Route.stepsOf path)
  let staging := target.join name
  let place ← ask staging.place
  ensuring
    (do
      stage staging contents
      promote staging target contents)
    (fun t => t.set none place)

/-- Writes all files and the index to a directory, nothing if the index cannot be made. -/
def write? (s : FileSet) (here : Place) (directory : String) (base : IncludeBase) :
    Option (FileAction Unit) :=
  (s.index? base).map fun index => install (Route.of here directory) (s.outputs index)

end Switchboard.FileSet
