import Switchboard.SortedMap

/-! File trees: directories and the texts of files, by places that are lists of names from the root
on. -/

namespace Switchboard

/-- A file with its contents, or a directory with what it has under each name. -/
inductive FileTree
  | file (contents : String)
  | directory (entries : List (String × FileTree))
deriving Repr, Inhabited, BEq

abbrev Place := List String

namespace FileTree

def empty : FileTree := .directory []

/-- What is at a place. -/
def at? : Place → FileTree → Option FileTree
  | [], t => some t
  | name :: rest, .directory entries =>
    match SortedMap.get? name entries with
    | some inner => at? rest inner
    | none => none
  | _ :: _, .file _ => none

/-- The entries of a directory with something under a name, or with nothing there. -/
def setEntry (name : String) (new : Option FileTree) (entries : SortedMap FileTree) :
    SortedMap FileTree :=
  match new with
  | some t => SortedMap.insert name t entries
  | none => SortedMap.erase name entries

/-- The tree with something else at a place, or with nothing there. Without a directory that the
place is in, nothing changes. -/
def set (new : Option FileTree) : Place → FileTree → FileTree
  | [], t => new.getD t
  | _, .file contents => .file contents
  | [name], .directory entries => .directory (setEntry name new entries)
  | name :: rest, .directory entries =>
    match SortedMap.get? name entries with
    | some inner => .directory (SortedMap.insert name (set new rest inner) entries)
    | none => .directory entries

mutual
/-- Every place below a route with the contents of its file. A directory has a slash at its end. -/
def listAt (route : String) : FileTree → List (String × Option String)
  | .file contents => [(route, some contents)]
  | .directory entries => (route ++ "/", none) :: listEntries (route ++ "/") entries

/-- Every place below the entries of a directory. -/
def listEntries (above : String) : List (String × FileTree) → List (String × Option String)
  | [] => []
  | (name, t) :: rest => t.listAt (above ++ name) ++ listEntries above rest
end

/-- Every place in a directory, the directory itself aside. -/
def list : FileTree → List (String × Option String)
  | .directory entries => listEntries "" entries
  | .file _ => []

end FileTree

end Switchboard
