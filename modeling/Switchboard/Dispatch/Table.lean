import Switchboard.SortedMap

/-! Dispatch tables: which group a type name is routed to. Every name has one group and no case is
empty. -/

namespace Switchboard

/-- The names that are routed to a group, in the order of their claims. -/
structure DispatchCase where
  group : Nat
  types : List String
deriving DecidableEq, Repr, Inhabited

/-- Why a case is not accepted, or a table not used. -/
inductive TableError
  | emptyCase (group : Nat)
  | duplicateType (name : String) (first second : Nat)
  | unknownGroup (group count : Nat)
deriving DecidableEq, Repr

def TableError.message : TableError → String
  | .emptyCase group => s!"dispatch case for group {group} owns no types"
  | .duplicateType name first second =>
    s!"type '{name}' is routed to both group {first} and group {second}"
  | .unknownGroup group count =>
    s!"dispatch case references group {group} but only {count} groups are registered"

/-- Cases in order, and the group of each name. -/
structure DispatchTable where
  cases : List DispatchCase := []
  index : SortedMap Nat := []
deriving DecidableEq, Repr, Inhabited

namespace DispatchTable

def groupOf (t : DispatchTable) (name : String) : Option Nat :=
  SortedMap.get? name t.index

def contains (t : DispatchTable) (name : String) : Bool := (t.groupOf name).isSome

/-- Every routed name, case by case. -/
def keys (t : DispatchTable) : List String := t.cases.flatMap DispatchCase.types

def groups (t : DispatchTable) : List Nat := t.cases.map DispatchCase.group

def size (t : DispatchTable) : Nat := t.index.length

def isEmpty (t : DispatchTable) : Bool := t.index.isEmpty

/-- The first name that is routed already or comes twice, and the group that it is routed to. -/
def clash? (t : DispatchTable) (group : Nat) : List String → List String → Option (String × Nat)
  | _, [] => none
  | before, name :: rest =>
    match t.groupOf name with
    | some first => some (name, first)
    | none =>
      if before.contains name then some (name, group) else t.clash? group (name :: before) rest

/-- The table with one more case. -/
def push (t : DispatchTable) (group : Nat) (types : List String) :
    Except TableError DispatchTable :=
  if types.isEmpty then .error (.emptyCase group)
  else
    match t.clash? group [] types with
    | some (name, first) => .error (.duplicateType name first group)
    | none =>
      .ok ⟨t.cases ++ [⟨group, types⟩],
        types.foldl (fun index name => SortedMap.insert name group index) t.index⟩

/-- The table with a name entered into the index and not into any case. -/
def enter (group : Nat) (t : DispatchTable) (name : String) : DispatchTable :=
  { t with index := SortedMap.insert name group t.index }

/-- Why a case is refused, if it is, and the table after it. The names of a case are looked through
before the first of them is entered. -/
def offer (c : DispatchCase) (t : DispatchTable) : Option TableError × DispatchTable :=
  if c.types.isEmpty then (some (.emptyCase c.group), t)
  else
    match t.clash? c.group [] c.types with
    | some (name, first) => (some (.duplicateType name first c.group), t)
    | none =>
      let t := c.types.foldl (enter c.group) t
      (none, { t with cases := t.cases ++ [c] })

/-- What comes of cases that are offered in order, and the table after them. -/
def offerAll : List DispatchCase → DispatchTable → List (Option TableError) × DispatchTable
  | [], t => ([], t)
  | c :: rest, t =>
    let (answer, t) := t.offer c
    let (answers, t) := offerAll rest t
    (answer :: answers, t)

/-- The table of cases in order. -/
def ofCases (cases : List DispatchCase) : Except TableError DispatchTable :=
  cases.foldlM (fun t c => t.push c.group c.types) {}

end DispatchTable

end Switchboard
