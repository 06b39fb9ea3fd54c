import Switchboard.Plan.Arity
import Switchboard.Plan.Tables
import Switchboard.RunError

/-! Plans: all that is decided about a model before any source text is made. -/

namespace Switchboard

/-- How loudly an event is logged. -/
inductive LogLevel
  | debug | warn
deriving DecidableEq, Repr

/-- What is logged while a plan is made. -/
inductive Event
  | dropped (level : LogLevel) (path : SchemaPath) (group owner : String)
  /-- The constructor of a type was found. -/
  | introspected (path : SchemaPath) (arity : Nat)
  | planned (groups types introspected routed : Nat)
deriving DecidableEq, Repr

structure Plan where
  groups : List Group
  ownership : Ownership
  files : List ConverterFile
  tables : DispatchTables
deriving DecidableEq, Repr

/-- How a plan is made: the types that were asked for in order with what was answered, what is
logged, and what comes of it. -/
structure Planning where
  asked : List (SchemaPath × Answer) := []
  events : List Event := []
  outcome : Except RunError Plan

/-- The level at which lost claims are logged, if they are. -/
def ConflictLevel.logLevel : ConflictLevel → Option LogLevel
  | .silent => none
  | .debug => some .debug
  | .warn => some .warn

namespace Plan

def groupName (groups : List Group) (index : Nat) : String :=
  ((groups[index]?).map Group.name).getD ""

/-- The events that tell of dropped claims. -/
def droppedEvents (groups : List Group) (o : Ownership) (level : ConflictLevel) : List Event :=
  match level.logLevel with
  | none => []
  | some level =>
    o.dropped.map fun claim =>
      .dropped level claim.path (groupName groups claim.group) (groupName groups claim.owner)

/-- The events that tell of what was found out about types. -/
def introspectedEvents (memo : ArityMemo) : List Event :=
  memo.asked.reverse.filterMap fun (p, answer) =>
    match answer with
    | .ok c => some (.introspected p c.arity)
    | .error _ => none

/-- The groups with their indexes and what they own. -/
def shares (groups : List Group) (o : Ownership) : List (Nat × Group × List SchemaPath) :=
  groups.zipIdx.map fun (g, index) => (index, g, o.ownedBy index)

/-- The making of a plan of a model whose names are in order. -/
def ofValid (m : Model) (ask : Introspector) (level : ConflictLevel) : Planning :=
  let ownership := Ownership.resolve m.groups
  let dropped := droppedEvents m.groups ownership level
  match ArityFilter.files ask (shares m.groups ownership) {} with
  | (memo, .error e) =>
    ⟨memo.asked.reverse, dropped ++ introspectedEvents memo, .error (.introspection e)⟩
  | (memo, .ok files) =>
    let events := dropped ++ introspectedEvents memo
    match DispatchTables.build ownership with
    | .error e => ⟨memo.asked.reverse, events, .error (.table e)⟩
    | .ok tables =>
      ⟨memo.asked.reverse,
        events ++ [.planned m.groups.length ownership.size memo.known.length tables.decode.size],
        .ok ⟨m.groups, ownership, files, tables⟩⟩

/-- The making of a plan of a model. Settings are checked first, then the model. -/
def planning (m : Model) (ask : Introspector) (c : Config) : Planning :=
  match c.fault? with
  | some fault => { outcome := .error (.setting fault) }
  | none =>
    let errors := m.errors
    if errors.isEmpty then ofValid m ask c.conflicts else { outcome := .error (.validation errors) }

/-- A plan of a model, and what is logged while it is made. -/
def make (m : Model) (ask : Introspector) (c : Config) : List Event × Except RunError Plan :=
  let p := planning m ask c
  (p.events, p.outcome)

end Plan

end Switchboard
