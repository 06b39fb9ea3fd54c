import Switchboard.FileTree

/-! Routes: how the name of a file leads to a place. Every name on the way must be that of a
directory, and two dots lead back. -/

namespace Switchboard

/-- Why a file is not read or written. -/
inductive FileError
  | missing
  | isDirectory
  | notDirectory
  | nameTooLong
  | nullInName
  /-- Something else is there already. -/
  | exists
deriving DecidableEq, Repr

def FileError.message : FileError → String
  | .missing => "No such file or directory (os error 2)"
  | .isDirectory => "Is a directory (os error 21)"
  | .notDirectory => "Not a directory (os error 20)"
  | .nameTooLong => "File name too long (os error 36)"
  | .nullInName => "file name contained an unexpected NUL byte"
  | .exists => "File exists (os error 17)"

/-- Where a name starts, the steps that it takes from there, and whether only a directory will do at
its end. -/
structure Route where
  start : Place
  steps : List String
  directory : Bool
deriving DecidableEq, Repr

namespace Route

/-- The steps of a name. Nothing and a single dot are no step. -/
def stepsOf (name : String) : List String :=
  ((name.toList.splitOn '/').map String.ofList).filter fun s => s != "" && s != "."

/-- Whether a name is one of a directory by its last part. -/
def endsInDirectory (name : String) : Bool :=
  match (name.toList.splitOn '/').getLast? with
  | some last => last == [] || last == ['.']
  | none => true

/-- The route of a name from a place. A slash in front starts at the root. -/
def of (place : Place) (name : String) : Route :=
  ⟨if name.toList.head? == some '/' then [] else place, stepsOf name, endsInDirectory name⟩

/-- The route of a name from the end of a route. -/
def join (r : Route) (name : String) : Route :=
  if name.toList.head? == some '/' then .of [] name
  else ⟨r.start, r.steps ++ stepsOf name, endsInDirectory name⟩

/-- The route to where the last step starts. -/
def parent (r : Route) : Route := ⟨r.start, r.steps.dropLast, false⟩

/-- Whether the null character, which no file can have in its name, is in a step. -/
def hasNull (r : Route) : Bool := r.steps.any fun s => s.toList.contains '\x00'

/-- The place that a step leads to from a directory. -/
def step (place : Place) (name : String) : Except FileError Place :=
  if name == ".." then .ok place.dropLast
  else if 255 < name.utf8ByteSize then .error .nameTooLong
  else .ok (place ++ [name])

/-- The place that steps lead to. There need not be anything. -/
def follow (t : FileTree) : Place → List String → Except FileError Place
  | place, [] => .ok place
  | place, name :: rest =>
    match t.at? place with
    | some (.directory _) =>
      match step place name with
      | .ok next => follow t next rest
      | .error e => .error e
    | some (.file _) => .error .notDirectory
    | none => .error .missing

def place (t : FileTree) (r : Route) : Except FileError Place :=
  if r.hasNull then .error .nullInName else follow t r.start r.steps

end Route

end Switchboard
