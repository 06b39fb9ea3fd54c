import Switchboard.Conversion.Stream
import Switchboard.Dispatch.Slot
import Switchboard.Sample.Schema

/-! The dispatcher of the sample schema, as it is generated: a slot for each group, and every type
name written out with the group that it is routed to. -/

namespace Switchboard.Sample

/-- A slot for each group. -/
structure Dispatcher where
  pets : Slot (Converter Object) := {}
  people : Slot (Converter Object) := {}
  shadow : Slot (Converter Object) := {}
  keywords : Slot (Converter Object) := {}

namespace Dispatcher

def memberOf? (type : String) : Option Member :=
  if type = "typemux_testing_fixtures::schema::Pet" ∨
      type = "typemux_testing_fixtures::schema::Owner" ∨
      type = "typemux_testing_fixtures::schema::Tag" then some .pets
  else if type = "typemux_testing_fixtures::schema::Person" ∨
      type = "typemux_testing_fixtures::schema::Pair" then some .people
  else if type = "typemux_testing_fixtures::schema::Keyword" ∨
      type = "typemux_testing_fixtures::schema::Marker" then some .keywords
  else none

def slot (d : Dispatcher) : Member → Slot (Converter Object)
  | .pets => d.pets
  | .people => d.people
  | .shadow => d.shadow
  | .keywords => d.keywords

/-- The dispatcher with another slot for a group. -/
def setSlot (d : Dispatcher) (s : Slot (Converter Object)) : Member → Dispatcher
  | .pets => { d with pets := s }
  | .people => { d with people := s }
  | .shadow => { d with shadow := s }
  | .keywords => { d with keywords := s }

/-- The converter of a group, made now if it has not been. -/
def converter (m : Member) (d : Dispatcher) : Converter Object × Dispatcher :=
  let (c, s, _) := (d.slot m).getOrMake fun _ => m.converter
  (c, d.setSlot s m)

def decode (type : String) (r : Record) (d : Dispatcher) :
    Except ConversionError Object × Dispatcher :=
  match memberOf? type with
  | none => (.error (.unmatched type), d)
  | some m =>
    let (c, d) := d.converter m
    (c.decode type r, d)

/-- The record of an object as some type. -/
def encodeAs (object : Object) (type : String) (d : Dispatcher) :
    Except ConversionError Record × Dispatcher :=
  match memberOf? type with
  | none => (.error (.unmatched type), d)
  | some m =>
    let (c, d) := d.converter m
    (c.encodeAs object type, d)

/-- The record of an object as its own type. -/
def encode (object : Object) (d : Dispatcher) : Except ConversionError Record × Dispatcher :=
  d.encodeAs object object.typeName

/-- The next object of many records of one type. -/
def decodeNext (supply : Supply σ Record) (type : String) :
    IndexedStream σ → Dispatcher → Pulled Object × IndexedStream σ × Dispatcher :=
  IndexedStream.pull supply fun r d => d.decode type r

/-- The next record of many objects, each written as its own type. -/
def encodeNext (supply : Supply σ Object) :
    IndexedStream σ → Dispatcher → Pulled Record × IndexedStream σ × Dispatcher :=
  IndexedStream.pull supply fun object d => d.encode object

def shown (d : Dispatcher) : String :=
  s!"Dispatcher \x7b pets: {d.pets.shown}, people: {d.people.shown}, " ++
    s!"shadow: {d.shadow.shown}, keywords: {d.keywords.shown} \x7d"

end Dispatcher

end Switchboard.Sample
