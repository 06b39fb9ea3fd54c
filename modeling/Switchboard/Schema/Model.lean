import Switchboard.Schema.Path
import Switchboard.Schema.Constructor
import Switchboard.Naming

/-! Models: groups that claim schema types, and what is known of the types beforehand. -/

namespace Switchboard

/-- Constructors of types that are known beforehand, by the texts of their paths. -/
abbrev TypeTable := SortedMap Constructor

namespace TypeTable

def constructor? (table : TypeTable) (p : SchemaPath) : Option Constructor :=
  SortedMap.get? p.text table

/-- The table with a constructor for a type, in place of the one that it had. -/
def define (table : TypeTable) (p : SchemaPath) (c : Constructor) : TypeTable :=
  SortedMap.insert p.text c table

/-- The table of a list of texts and constructors. Of two texts for one path the later stays. -/
def ofList (pairs : List (String × Constructor)) : TypeTable :=
  pairs.foldl (fun table (s, c) => table.define (.of s) c) []

def entries (table : TypeTable) : List (SchemaPath × Constructor) :=
  table.map fun (text, c) => (⟨text⟩, c)

def toJson (table : TypeTable) : Json :=
  .object (table.map fun (text, c) => (text, c.toJson))

def reader : Json.Reader TypeTable
  | o, .object found ending => do
    let step (table : TypeTable) (key : String) (t : Json.Tree) : Except Json.Problem TypeTable := do
      return define table (.of key) (← Constructor.reader o t)
    Json.Reader.entries step [] found ending
  | _, t => Json.Reader.reject "a map" t

end TypeTable

/-- A unit of conversion: a name and the types that it claims, in order. -/
structure Group where
  name : String
  /-- The name of its accessor, if it is not to be made from the group's name. -/
  accessor : Option String := none
  claims : List SchemaPath := []
deriving DecidableEq, Repr, Inhabited

namespace Group

def accessorName (g : Group) : String :=
  g.accessor.getD (Naming.snake g.name)

def converterName (g : Group) : String := Naming.converterType g.name

def moduleName (g : Group) : String := Naming.snake g.name

/-- The JSON form. No accessor is left out. -/
def toJson (g : Group) : Json :=
  .object ((match g.accessor with
    | some accessor => [("accessor", .string accessor)]
    | none => []) ++
    [("name", .string g.name), ("schemas", .strings (g.claims.map SchemaPath.text))])

/-- The fields in the order in which they are declared. -/
def fields (g : Group) : List (String × Json) :=
  ("name", .string g.name) :: ((match g.accessor with
    | some accessor => [("accessor", .string accessor)]
    | none => []) ++
    [("schemas", .strings (g.claims.map SchemaPath.text))])

structure Draft where
  name : Option String := none
  accessor : Option (Option String) := none
  claims : Option (List SchemaPath) := none

def pathReader : Json.Reader SchemaPath
  | o, t => SchemaPath.of <$> Json.Reader.string o t

/-- Reads the JSON form: an object, or an array of the fields in order. -/
def reader : Json.Reader Group
  | o, .object found ending => do
    let step (d : Draft) (key : String) (t : Json.Tree) : Except Json.Problem Draft := do
      match key with
      | "name" => return { d with name := ← Json.Reader.field .string o key d.name t }
      | "accessor" =>
        return { d with accessor := ← Json.Reader.field (.option .string) o key d.accessor t }
      | "schemas" =>
        return { d with claims := ← Json.Reader.field (.list pathReader) o key d.claims t }
      | _ => return d
    let d ← Json.Reader.entries step {} found ending
    return ⟨← Json.Reader.required "name" d.name, d.accessor.getD none, d.claims.getD []⟩
  | o, .array items ending => do
    let name ← Json.Reader.item .string o "struct Group with 3 elements" items ending 0
    let accessor ← Json.Reader.itemD (.option .string) o none items ending 1
    let claims ← Json.Reader.itemD (.list pathReader) o [] items ending 2
    Json.Reader.closeAfter o 3 items ending
    return ⟨name, accessor, claims⟩
  | _, t => Json.Reader.reject "struct Group" t

end Group

/-- Groups in order, and the types known beforehand. -/
structure Model where
  groups : List Group
  types : TypeTable := []
deriving DecidableEq, Repr, Inhabited

namespace Model

def toJson (m : Model) : Json :=
  .object (("groups", .array (m.groups.map Group.toJson)) ::
    (if m.types.isEmpty then [] else [("types", TypeTable.toJson m.types)]))

/-- The model as text, fields in the order in which they are declared and no blank between. -/
def toText (m : Model) : String :=
  Json.print (.object (("groups", .array (m.groups.map fun g => .object g.fields)) ::
    (if m.types.isEmpty then [] else [("types", TypeTable.toJson m.types)])))

structure Draft where
  groups : Option (List Group) := none
  types : Option TypeTable := none

/-- Reads the JSON form: an object, or an array of the fields in order. -/
def reader : Json.Reader Model
  | o, .object found ending => do
    let step (d : Draft) (key : String) (t : Json.Tree) : Except Json.Problem Draft := do
      match key with
      | "groups" =>
        return { d with groups := ← Json.Reader.field (.list Group.reader) o key d.groups t }
      | "types" => return { d with types := ← Json.Reader.field TypeTable.reader o key d.types t }
      | _ => return d
    let d ← Json.Reader.entries step {} found ending
    return ⟨← Json.Reader.required "groups" d.groups, d.types.getD []⟩
  | o, .array items ending => do
    let expected := "struct Model with 2 elements"
    let groups ← Json.Reader.item (.list Group.reader) o expected items ending 0
    let types ← Json.Reader.itemD TypeTable.reader o [] items ending 1
    Json.Reader.closeAfter o 2 items ending
    return ⟨groups, types⟩
  | _, t => Json.Reader.reject "struct Model" t

def ofText (s : String) : Except Json.Problem Model := reader.ofText s

end Model

end Switchboard
