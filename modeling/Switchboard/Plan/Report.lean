import Switchboard.Dispatch.Case
import Switchboard.Plan

/-! Reports: a plan as it is shown, with groups by their names. -/

namespace Switchboard

structure GroupReport where
  name : String
  accessor : String
  converter : String
  module : String
  owned : List SchemaPath
  mapped : List SchemaPath
  fieldless : List SchemaPath
deriving DecidableEq, Repr

/-- What a report says of one dropped claim. -/
structure DroppedReport where
  path : SchemaPath
  group : String
  owner : String
deriving DecidableEq, Repr

structure Report where
  groups : List GroupReport
  dropped : List DroppedReport
  decode : List DispatchCase
  encode : List DispatchCase
deriving DecidableEq, Repr

namespace Report

def ofFile (p : Plan) (f : ConverterFile) : GroupReport :=
  { name := f.name,
    accessor := ((p.groups[f.group]?).map Group.accessorName).getD "",
    converter := f.converter,
    module := f.module,
    owned := p.ownership.ownedBy f.group,
    mapped := f.mapped.map MappedType.path,
    fieldless := f.fieldless }

def ofClaim (p : Plan) (c : DroppedClaim) : DroppedReport :=
  ⟨c.path, Plan.groupName p.groups c.group, Plan.groupName p.groups c.owner⟩

def ofPlan (p : Plan) : Report :=
  ⟨p.files.map (ofFile p), p.ownership.dropped.map (ofClaim p), p.tables.decode.cases,
    p.tables.encode.cases⟩

def pathsToJson (ps : List SchemaPath) : Json := .strings (ps.map SchemaPath.text)

/-- The part of a group as it is written. -/
def groupToJson (g : GroupReport) : Json :=
  .object [("name", .string g.name), ("accessor", .string g.accessor),
    ("mapper", .string g.converter), ("module", .string g.module), ("owned", pathsToJson g.owned),
    ("mapped", pathsToJson g.mapped), ("fieldless", pathsToJson g.fieldless)]

/-- The part of a dropped claim as it is written. -/
def droppedToJson (d : DroppedReport) : Json :=
  .object [("type", .string d.path.text), ("group", .string d.group), ("owner", .string d.owner)]

/-- The report as it is written. Its entries are in the order in which they are read. -/
def toJson (r : Report) : Json :=
  .object [("groups", .array (r.groups.map groupToJson)),
    ("dropped", .array (r.dropped.map droppedToJson)),
    ("decode", .array (r.decode.map DispatchCase.toJson)),
    ("encode", .array (r.encode.map DispatchCase.toJson))]

end Report

end Switchboard
