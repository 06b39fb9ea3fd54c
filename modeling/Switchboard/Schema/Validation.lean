import Switchboard.Schema.Model
import Switchboard.Naming.Check
import Switchboard.ErrorTree

/-! What must hold of a model before anything is made from it: its names can stand in source text,
and names of things that would meet are distinct. Everything that is wrong is told at once. -/

namespace Switchboard

/-- Of what two groups may not have the same. -/
inductive GroupKey
  | name | accessor | moduleName
deriving DecidableEq, Repr

def GroupKey.of : GroupKey → Group → String
  | .name => Group.name
  | .accessor => Group.accessorName
  | .moduleName => Group.moduleName

/-- The key as messages call it. -/
def GroupKey.label : GroupKey → String
  | .name => "name"
  | .accessor => "accessor"
  | .moduleName => "module name"

inductive Complaint
  | blankName
  | accessor (fault : NameFault)
  | moduleName (fault : NameFault)
  | converterName (fault : NameFault)
  /-- Of a claim, a path of the type table or a field. -/
  | name (fault : NameFault)
  | duplicateGroup (key : GroupKey) (value earlier later : String)
  | duplicateField (field : String)
deriving DecidableEq, Repr

def Complaint.message : Complaint → String
  | .blankName => "group name is empty"
  | .accessor fault => "accessor: " ++ fault.message
  | .moduleName fault => "module name: " ++ fault.message
  | .converterName fault => "converter name: " ++ fault.message
  | .name fault => fault.message
  | .duplicateGroup key value earlier later =>
    s!"duplicate group {key.label} '{value}' for '{earlier}' and '{later}'"
  | .duplicateField field => s!"duplicate field '{field}'"

def Group.isBlank (g : Group) : Bool := Text.allBlank g.name

/-- What is wrong with a group by itself. -/
def Group.complaints (g : Group) : List Complaint :=
  if g.isBlank then [.blankName]
  else
    ((Naming.identifierFault? g.accessorName).map Complaint.accessor).toList ++
    ((Naming.identifierFault? g.moduleName).map Complaint.moduleName).toList ++
    ((Naming.identifierFault? g.converterName).map Complaint.converterName).toList ++
    g.claims.filterMap fun p => (Naming.pathFault? p.text).map Complaint.name

/-- The place of what is wrong with a group: its name or, if it has none, its index. -/
def Group.place (index : Nat) (g : Group) : String :=
  if g.name.isEmpty then s!"groups[{index}]" else g.name

/-- Complaints about groups whose key is taken already. The map tells which group had a key last. -/
def duplicates (key : GroupKey) : SortedMap String → List Group → List Complaint
  | _, [] => []
  | seen, g :: rest =>
    let value := key.of g
    ((SortedMap.get? value seen).map (.duplicateGroup key value · g.name)).toList ++
      duplicates key (SortedMap.insert value g.name seen) rest

/-- Complaints about fields that have no proper name or one that is taken already. -/
def fieldComplaints : List String → List String → List Complaint
  | _, [] => []
  | seen, field :: rest =>
    ((Naming.fieldFault? field).map Complaint.name).toList ++
      (if seen.contains field then [.duplicateField field] else []) ++
      fieldComplaints (field :: seen) rest

/-- What is wrong with an entry of a type table. -/
def typeComplaints (p : SchemaPath) (c : Constructor) : List Complaint :=
  ((Naming.pathFault? p.text).map Complaint.name).toList ++
    match c with
    | .named fields => fieldComplaints [] fields
    | _ => []

namespace Model

/-- What is wrong with each group, at its place. -/
def groupErrors (groups : List Group) : ErrorTree Complaint :=
  groups.zipIdx.foldl (fun t (g, i) => t.mergeAt (g.place i) (.node g.complaints [])) .empty

/-- What is wrong with the keys of groups that are named. -/
def keyComplaints (groups : List Group) : List Complaint :=
  let named := groups.filter fun g => !g.isBlank
  [GroupKey.name, .accessor, .moduleName].flatMap fun key => duplicates key [] named

/-- Everything that is wrong with a model. -/
def errors (m : Model) : ErrorTree Complaint :=
  let withKeys := (keyComplaints m.groups).foldl (fun t c => t.add c) (groupErrors m.groups)
  (TypeTable.entries m.types).foldl
    (fun t (p, c) => t.mergeAt p.text (.node (typeComplaints p c) [])) withKeys

def isValid (m : Model) : Bool := m.errors.isEmpty

end Model

end Switchboard
