import Switchboard.Conversion.Converter
import Switchboard.Conversion.Stream
import Switchboard.Dispatch.Slot
import Switchboard.Dispatch.Table
import Switchboard.Text.Quoted

/-! Dispatchers: a table that says which group a type belongs to, and the converter of each group,
made when it is first needed. -/

namespace Switchboard

/-- A table, and for each group in order its name and how its converter is made. -/
structure DispatchPlan (ω : Type) where
  table : DispatchTable
  groups : List (String × (Unit → Converter ω))

namespace DispatchPlan

def names (p : DispatchPlan ω) : List String := p.groups.map Prod.fst

/-- What keeps a plan from being used: a case of a group that is not there. -/
def fault? (p : DispatchPlan ω) : Option TableError :=
  (p.table.groups.find? fun group => p.groups.length ≤ group).map
    fun group => .unknownGroup group p.groups.length

end DispatchPlan

/-- A dispatcher in use: a slot for each group, and the groups whose converters have been made, the
latest first. -/
structure Dispatcher (ω : Type) where
  plan : DispatchPlan ω
  slots : List (Slot (Converter ω))
  made : List Nat := []

namespace Dispatcher

variable {ω : Type}

/-- A dispatcher that has made no converter. -/
def start (p : DispatchPlan ω) : Except TableError (Dispatcher ω) :=
  match p.fault? with
  | some e => .error e
  | none => .ok ⟨p, p.groups.map fun _ => {}, []⟩

/-- The converter of a group, made now if it has not been, and nothing if there is no such group. -/
def converter (group : Nat) (d : Dispatcher ω) : Option (Converter ω) × Dispatcher ω :=
  match d.slots[group]?, d.plan.groups[group]? with
  | some slot, some (_, make) =>
    let (c, slot, new) := slot.getOrMake make
    (some c, ⟨d.plan, d.slots.set group slot, if new then group :: d.made else d.made⟩)
  | _, _ => (none, d)

/-- The converter of the first group with a name. -/
def converterNamed (name : String) (d : Dispatcher ω) : Option (Converter ω) × Dispatcher ω :=
  match d.plan.names.findIdx? (· == name) with
  | some group => d.converter group
  | none => (none, d)

/-- Whether the converter of a group has been made. -/
def isMade (d : Dispatcher ω) (group : Nat) : Bool :=
  ((d.slots[group]?).map Slot.isFilled).getD false

/-- The converter that a type is routed to. -/
def route (type : String) (d : Dispatcher ω) :
    Except ConversionError (Converter ω) × Dispatcher ω :=
  match d.plan.table.groupOf type with
  | none => (.error (.unmatched type), d)
  | some group =>
    match d.converter group with
    | (some c, d) => (.ok c, d)
    | (none, d) => (.error (.unmatched type), d)

def decode (type : String) (r : Record) (d : Dispatcher ω) :
    Except ConversionError ω × Dispatcher ω :=
  match d.route type with
  | (.ok c, d) => (c.decode type r, d)
  | (.error e, d) => (.error e, d)

/-- The record of an object as some type. -/
def encodeAs (object : ω) (type : String) (d : Dispatcher ω) :
    Except ConversionError Record × Dispatcher ω :=
  match d.route type with
  | (.ok c, d) => (c.encodeAs object type, d)
  | (.error e, d) => (.error e, d)

/-- The record of an object as its own type. -/
def encode [Typed ω] (object : ω) (d : Dispatcher ω) :
    Except ConversionError Record × Dispatcher ω :=
  d.encodeAs object (Typed.typeName object)

/-- The next object of many records of one type. -/
def decodeNext (supply : Supply σ Record) (type : String) :
    IndexedStream σ → Dispatcher ω → Pulled ω × IndexedStream σ × Dispatcher ω :=
  IndexedStream.pull supply fun r d => d.decode type r

/-- The next record of many objects, each written as its own type. -/
def encodeNext [Typed ω] (supply : Supply σ ω) :
    IndexedStream σ → Dispatcher ω → Pulled Record × IndexedStream σ × Dispatcher ω :=
  IndexedStream.pull supply fun object d => d.encode object

def shownTexts (texts : List String) : String :=
  "[" ++ ", ".intercalate (texts.map Text.Quoted.message) ++ "]"

def shownCase (c : DispatchCase) : String :=
  s!"DispatchCase \x7b group: {c.group}, types: {shownTexts c.types} \x7d"

def shownTable (t : DispatchTable) : String :=
  let entry (e : String × Nat) : String := s!"{Text.Quoted.message e.1}: {e.2}"
  let cases := ", ".intercalate (t.cases.map shownCase)
  let index := ", ".intercalate (t.index.map entry)
  s!"DispatchTable \x7b cases: [{cases}], index: \x7b{index}\x7d \x7d"

def shown (d : Dispatcher ω) : String :=
  let table := shownTable d.plan.table
  let plan := s!"DispatchPlan \x7b table: {table}, groups: {shownTexts d.plan.names} \x7d"
  let slots := ", ".intercalate (d.slots.map Slot.shown)
  s!"DynamicDispatcher \x7b plan: {plan}, slots: [{slots}] \x7d"

end Dispatcher

end Switchboard
