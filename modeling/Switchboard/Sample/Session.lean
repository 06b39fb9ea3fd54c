import Switchboard.Dispatch.Session
import Switchboard.Sample.Dispatcher
import Switchboard.Sample.Model

/-! Sessions with the dispatcher of the sample schema, and what the same uses ask of a dispatcher
that is not generated. -/

namespace Switchboard.Sample

/-- The place of a group among the groups of the schema. -/
def Member.index : Member → Nat
  | .pets => 0
  | .people => 1
  | .shadow => 2
  | .keywords => 3

/-- What can be done with both dispatchers. Open batches are known by the order they were opened in.
-/
inductive Use (σ : Type)
  | decode (type : String) (r : Record)
  | encode (object : Object)
  | encodeAs (object : Object) (type : String)
  /-- The converter of a group is asked for by itself. -/
  | converter (m : Member)
  | openBatch (batch : Batch σ Object) (items : σ)
  | pull (opened : Nat)

/-- What a use asks of a dispatcher that is not generated. -/
def Use.request : Use σ → Request σ Object
  | .decode type r => .decode type r
  | .encode object => .encode object
  | .encodeAs object type => .encodeAs object type
  | .converter m => .converter m.index
  | .openBatch batch items => .openBatch batch items
  | .pull i => .pull i

/-- The dispatcher and the batches that have been opened on it, the oldest first. -/
structure Session (σ : Type) where
  dispatcher : Dispatcher := {}
  opened : List (OpenBatch σ Object) := []

/-- What an open batch gives next. -/
def Dispatcher.pull (o : OpenBatch σ Object) (d : Dispatcher) :
    Response Object × OpenBatch σ Object × Dispatcher :=
  match o.batch with
  | .decoding type supply =>
    let (next, stream, d) := d.decodeNext supply type o.stream
    (.nextObject next, { o with stream }, d)
  | .encoding supply =>
    let (next, stream, d) := d.encodeNext supply o.stream
    (.nextRecord next, { o with stream }, d)

namespace Session

/-- What a use gives, and the session after it. -/
def step (use : Use σ) (s : Session σ) : Response Object × Session σ :=
  match use with
  | .decode type r =>
    let (result, dispatcher) := s.dispatcher.decode type r
    (.object result, { s with dispatcher })
  | .encode object =>
    let (result, dispatcher) := s.dispatcher.encode object
    (.record result, { s with dispatcher })
  | .encodeAs object type =>
    let (result, dispatcher) := s.dispatcher.encodeAs object type
    (.record result, { s with dispatcher })
  | .converter m =>
    let (found, dispatcher) := s.dispatcher.converter m
    (.converter (some found), { s with dispatcher })
  | .openBatch batch items =>
    (.opened, { s with opened := s.opened ++ [⟨batch, { inner := items }⟩] })
  | .pull i =>
    match s.opened[i]? with
    | none => (.notOpen, s)
    | some o =>
      let (next, o, dispatcher) := s.dispatcher.pull o
      (next, ⟨dispatcher, s.opened.set i o⟩)

/-- What uses give in order, and the session after them. -/
def run : List (Use σ) → Session σ → List (Response Object) × Session σ
  | [], s => ([], s)
  | use :: rest, s =>
    let (answer, s) := s.step use
    let (answers, s) := run rest s
    (answer :: answers, s)

end Session

end Switchboard.Sample
