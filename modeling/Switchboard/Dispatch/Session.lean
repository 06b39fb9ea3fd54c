import Switchboard.Dispatch.Dispatcher

/-! Sessions: requests to one dispatcher in any order. Batches that are being converted stay open
between requests, and what each of them gives is asked for one item at a time. -/

namespace Switchboard

/-- Many items to convert: records of one type, or objects that are each written as their own type.
-/
inductive Batch (σ ω : Type)
  | decoding (type : String) (supply : Supply σ Record)
  | encoding (supply : Supply σ ω)

/-- A batch and how far it has been converted. -/
structure OpenBatch (σ ω : Type) where
  batch : Batch σ ω
  stream : IndexedStream σ

/-- What can be asked of a dispatcher. Open batches are known by the order they were opened in. -/
inductive Request (σ ω : Type)
  | decode (type : String) (r : Record)
  | encode (object : ω)
  | encodeAs (object : ω) (type : String)
  | converter (group : Nat)
  | converterNamed (name : String)
  | isMade (group : Nat)
  | openBatch (batch : Batch σ ω) (items : σ)
  | pull (opened : Nat)

/-- What is answered. -/
inductive Response (ω : Type)
  | object (result : Except ConversionError ω)
  | record (result : Except ConversionError Record)
  | converter (found : Option (Converter ω))
  | isMade (yes : Bool)
  | opened
  | nextObject (next : Pulled ω)
  | nextRecord (next : Pulled Record)
  /-- No batch of that number is open. -/
  | notOpen

/-- A dispatcher and the batches that have been opened on it, the oldest first. -/
structure Session (σ ω : Type) where
  dispatcher : Dispatcher ω
  opened : List (OpenBatch σ ω) := []

variable {σ ω : Type} [Typed ω]

/-- What an open batch gives next. -/
def OpenBatch.pull (o : OpenBatch σ ω) (d : Dispatcher ω) :
    Response ω × OpenBatch σ ω × Dispatcher ω :=
  match o.batch with
  | .decoding type supply =>
    let (next, stream, d) := d.decodeNext supply type o.stream
    (.nextObject next, { o with stream }, d)
  | .encoding supply =>
    let (next, stream, d) := d.encodeNext supply o.stream
    (.nextRecord next, { o with stream }, d)

namespace Session

/-- The answer to a request, and the session after it. -/
def step (request : Request σ ω) (s : Session σ ω) : Response ω × Session σ ω :=
  match request with
  | .decode type r =>
    let (result, dispatcher) := s.dispatcher.decode type r
    (.object result, { s with dispatcher })
  | .encode object =>
    let (result, dispatcher) := s.dispatcher.encode object
    (.record result, { s with dispatcher })
  | .encodeAs object type =>
    let (result, dispatcher) := s.dispatcher.encodeAs object type
    (.record result, { s with dispatcher })
  | .converter group =>
    let (found, dispatcher) := s.dispatcher.converter group
    (.converter found, { s with dispatcher })
  | .converterNamed name =>
    let (found, dispatcher) := s.dispatcher.converterNamed name
    (.converter found, { s with dispatcher })
  | .isMade group => (.isMade (s.dispatcher.isMade group), s)
  | .openBatch batch items =>
    (.opened, { s with opened := s.opened ++ [⟨batch, { inner := items }⟩] })
  | .pull i =>
    match s.opened[i]? with
    | none => (.notOpen, s)
    | some o =>
      let (next, o, dispatcher) := o.pull s.dispatcher
      (next, ⟨dispatcher, s.opened.set i o⟩)

/-- The answers to requests in order, and the session after them. -/
def run : List (Request σ ω) → Session σ ω → List (Response ω) × Session σ ω
  | [], s => ([], s)
  | request :: rest, s =>
    let (answer, s) := s.step request
    let (answers, s) := run rest s
    (answer :: answers, s)

end Session

end Switchboard
