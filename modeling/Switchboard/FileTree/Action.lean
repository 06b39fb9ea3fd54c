import Switchboard.FileTree.Route

/-! Reading and changing a file tree. What an action has changed stays changed when it fails. -/

namespace Switchboard

/-- What changes a file tree, and may fail. -/
abbrev FileAction (α : Type) := FileTree → FileTree × Except FileError α

namespace FileAction

instance : Monad FileAction where
  pure a t := (t, .ok a)
  bind first next t :=
    match first t with
    | (t, .ok a) => next a t
    | (t, .error e) => (t, .error e)

def fail (e : FileError) : FileAction α := fun t => (t, .error e)

/-- What a function says of the tree. -/
def ask (f : FileTree → Except FileError α) : FileAction α := fun t => (t, f t)

/-- Puts something at a place. -/
def set (new : Option FileTree) (place : Place) : FileAction Unit := fun t =>
  (t.set new place, .ok ())

/-- One action, then another one that nothing keeps from being taken. -/
def ensuring (first : FileAction α) (last : FileTree → FileTree) : FileAction α := fun t =>
  let (t, result) := first t
  (last t, result)

/-- The contents of the file that a name leads to. -/
def contents (t : FileTree) (here : Place) (name : String) : Except FileError String := do
  if name.isEmpty then throw .missing
  let r := Route.of here name
  let place ← r.place t
  match t.at? place with
  | some (.file contents) => if r.directory then throw .notDirectory else return contents
  | some (.directory _) => throw .isDirectory
  | none => throw .missing

def leads (t : FileTree) (here : Place) (name : String) : Bool :=
  let r := Route.of here name
  !name.isEmpty &&
    match r.place t with
    | .ok place =>
      match t.at? place with
      | some (.file _) => !r.directory
      | some (.directory _) => true
      | none => false
    | .error _ => false

/-- Makes the directories that are missing on the way. -/
def createAlong : Place → List String → FileAction Unit
  | _, [] => pure ()
  | place, name :: rest => do
    let next ← ask fun _ => Route.step place name
    match ← ask fun t => .ok (t.at? next) with
    | some (.directory _) => createAlong next rest
    | some (.file _) => fail .exists
    | none => do
      set (some .empty) next
      createAlong next rest

/-- Makes a directory and those that it is in. -/
def createDirectories (r : Route) : FileAction Unit :=
  if r.hasNull then fail .nullInName else createAlong r.start r.steps

/-- Writes a file where no directory is. -/
def write (r : Route) (contents : String) : FileAction Unit := do
  let place ← ask r.place
  match ← ask fun t => .ok (t.at? place) with
  | some (.directory _) => fail .isDirectory
  | _ => if r.directory then fail .isDirectory else set (some (.file contents)) place

/-- Moves a file, in place of one that may be there. -/
def move (source target : Route) : FileAction Unit := do
  let old ← ask source.place
  let new ← ask target.place
  match ← ask fun t => .ok (t.at? old, t.at? new) with
  | (none, _) => fail .missing
  | (some (.directory _), _) => fail .isDirectory
  | (_, some (.directory _)) => fail .isDirectory
  | (some (.file contents), _) =>
    if target.directory then fail .notDirectory
    else do
      set none old
      set (some (.file contents)) new

/-- The characters that the names of temporary entries end in. -/
def nameAlphabet : List Char :=
  "ABCDEFGHIJKLMNOPQRSTUVWXYZabcdefghijklmnopqrstuvwxyz0123456789".toList

/-- One of the names that a temporary entry may have: six characters after a common beginning. -/
def temporaryName (n : Nat) : String :=
  String.ofList ('.' :: 't' :: 'm' :: 'p' ::
    (List.range 6).map fun i => nameAlphabet.getD (n / Nat.pow 62 i % 62) 'A')

/-- A name of its own for a temporary entry, nothing if all that it may have are taken. -/
def freshName? (taken : List String) : Option String :=
  ((List.range (min (taken.length + 1) (Nat.pow 62 6))).map temporaryName).find? fun s =>
    !taken.contains s

end FileAction

end Switchboard
