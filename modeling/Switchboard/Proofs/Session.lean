import Mathlib.Data.List.Basic
import Mathlib.Data.List.Induction
import Switchboard.Dispatch.Session
import Switchboard.Sample.Schema

/-! What a dispatcher answers and which converters it makes, whatever is asked of it and in whatever
order. Answers come from the plan alone, and a converter is made once, when it is first needed. -/

namespace Switchboard

variable {σ ω α β : Type}

/-! ## What a plan gives -/

namespace DispatchPlan

/-- The converter of a group, if there is such a group. -/
def converterOf (p : DispatchPlan ω) (group : Nat) : Option (Converter ω) :=
  p.groups[group]?.map fun g => g.2 ()

/-- The converter that a type is routed to. -/
def routed (p : DispatchPlan ω) (type : String) : Except ConversionError (Converter ω) :=
  match (p.table.groupOf type).bind p.converterOf with
  | some c => .ok c
  | none => .error (.unmatched type)

/-- The object of a record. -/
def decode (p : DispatchPlan ω) (type : String) (r : Record) : Except ConversionError ω := do
  (← p.routed type).decode type r

/-- The record of an object as some type. -/
def encodeAs (p : DispatchPlan ω) (object : ω) (type : String) : Except ConversionError Record := do
  (← p.routed type).encodeAs object type

end DispatchPlan

/-- The item that the stream converts when it is asked for the next. -/
def IndexedStream.awaited (supply : Supply σ α) (s : IndexedStream σ) : Option α :=
  if s.halted then none else (supply.next s.inner).1

namespace OpenBatch

variable [Typed ω]

/-- What the batch gives next if its items are converted by a plan. -/
def pullAlone (p : DispatchPlan ω) (o : OpenBatch σ ω) : Response ω × OpenBatch σ ω :=
  match o.batch with
  | .decoding type supply =>
    let (next, stream, _) := o.stream.pull supply (fun r u => (p.decode type r, u)) ()
    (.nextObject next, { o with stream })
  | .encoding supply =>
    let convert object u := (p.encodeAs object (Typed.typeName object), u)
    let (next, stream, _) := o.stream.pull supply convert ()
    (.nextRecord next, { o with stream })

/-- The batch after it has been asked so many times. -/
def after (p : DispatchPlan ω) (o : OpenBatch σ ω) : Nat → OpenBatch σ ω
  | 0 => o
  | n + 1 => ((o.after p n).pullAlone p).2

/-- The type of the item that is converted when the batch is asked for the next. -/
def awaited (o : OpenBatch σ ω) : Option String :=
  match o.batch with
  | .decoding type supply => (o.stream.awaited supply).map fun _ => type
  | .encoding supply => (o.stream.awaited supply).map Typed.typeName

end OpenBatch

/-! ## What requests ask for -/

/-- The batches that have been opened, each as it was then and with how often it has been asked. -/
def Request.tally (found : List (OpenBatch σ ω × Nat)) :
    Request σ ω → List (OpenBatch σ ω × Nat)
  | .openBatch batch items => found ++ [(⟨batch, { inner := items }⟩, 0)]
  | .pull i => found.modify i fun (o, n) => (o, n + 1)
  | _ => found

/-- The batches that requests in order have opened. -/
def Request.opened (requests : List (Request σ ω)) : List (OpenBatch σ ω × Nat) :=
  requests.foldl Request.tally []

/-- What a request depends on and the request itself: a batch is opened and asked as often as
before, and nothing else is asked for. -/
def Request.alone (before : List (Request σ ω)) : Request σ ω → List (Request σ ω)
  | .pull i =>
    match (Request.opened before)[i]? with
    | some (o, n) => .openBatch o.batch o.stream.inner :: List.replicate (n + 1) (.pull 0)
    | none => [.pull i]
  | request => [request]

section Requests

variable [Typed ω]

/-- The group whose converter a request needs, coming after some others. -/
def Request.need (p : DispatchPlan ω) (before : List (Request σ ω)) : Request σ ω → Option Nat
  | .decode type _ | .encodeAs _ type => p.table.groupOf type
  | .encode object => p.table.groupOf (Typed.typeName object)
  | .converter group => some group
  | .converterNamed name => p.names.findIdx? (· == name)
  | .isMade _ | .openBatch .. => none
  | .pull i => do
    let (o, n) ← (Request.opened before)[i]?
    p.table.groupOf (← (o.after p n).awaited)

/-- Whether there is such a group and one of some requests in order needs its converter. -/
def Needed (p : DispatchPlan ω) (requests : List (Request σ ω)) (group : Nat) : Prop :=
  group < p.groups.length ∧
    ∃ i < requests.length, requests[i]?.bind (Request.need p (requests.take i)) = some group

instance (p : DispatchPlan ω) (requests : List (Request σ ω)) : DecidablePred (Needed p requests) :=
  fun _ => inferInstanceAs (Decidable (_ ∧ _))

/-- The answer to a request that comes after some others. -/
def Request.answer (p : DispatchPlan ω) (before : List (Request σ ω)) : Request σ ω → Response ω
  | .decode type r => .object (p.decode type r)
  | .encode object => .record (p.encodeAs object (Typed.typeName object))
  | .encodeAs object type => .record (p.encodeAs object type)
  | .converter group => .converter (p.converterOf group)
  | .converterNamed name => .converter ((p.names.findIdx? (· == name)).bind p.converterOf)
  | .isMade group => .isMade (decide (Needed p before group))
  | .openBatch .. => .opened
  | .pull i =>
    match (Request.opened before)[i]? with
    | some (o, n) => ((o.after p n).pullAlone p).1
    | none => .notOpen

end Requests

/-! ## One dispatcher -/

namespace Dispatcher

/-- Whether the slots hold what the plan makes, just for the groups that are noted as made. -/
structure Consistent (p : DispatchPlan ω) (d : Dispatcher ω) : Prop where
  plan : d.plan = p
  slots : ∀ g, d.slots[g]? =
    p.groups[g]?.map fun group => (⟨if g ∈ d.made then some (group.2 ()) else none⟩ : Slot _)
  once : d.made.Nodup
  inside : ∀ g ∈ d.made, g < p.groups.length

/-- Whether a dispatcher comes from another by making the converter that is needed. -/
structure Serves (p : DispatchPlan ω) (d : Dispatcher ω) (need : Option Nat) (d' : Dispatcher ω) :
    Prop where
  consistent : d'.Consistent p
  mem_made : ∀ g, g ∈ d'.made ↔ g ∈ d.made ∨ g < p.groups.length ∧ need = some g

variable {p : DispatchPlan ω} {d : Dispatcher ω}

private theorem consistent_start (h : start p = .ok d) : d.Consistent p := by
  simp only [start] at h
  split at h
  · cases h
  · cases h
    refine ⟨rfl, ?_, List.nodup_nil, ?_⟩
    · intro g
      rw [List.getElem?_map]
      rfl
    · intro g hg
      cases hg

private theorem Consistent.isMade_iff (hd : d.Consistent p) (g : Nat) :
    d.isMade g = true ↔ g ∈ d.made := by
  simp only [isMade, hd.slots g]
  cases hg : p.groups[g]? with
  | none =>
    have hout : g ∉ d.made := fun hm => by
      have := hd.inside g hm
      have := List.getElem?_eq_none_iff.mp hg
      omega
    simp [hout]
  | some group => by_cases hm : g ∈ d.made <;> simp [Slot.isFilled, hm]

/-- Nothing needs to be done if nothing is needed, or what is needed has been made. -/
theorem Consistent.serves_self (hd : d.Consistent p) {need : Option Nat}
    (hn : ∀ g, need = some g → g < p.groups.length → g ∈ d.made) : Serves p d need d := by
  refine ⟨hd, fun g => ⟨.inl, ?_⟩⟩
  rintro (hm | ⟨hlt, hg⟩)
  · exact hm
  · exact hn g hg hlt

/-- The converter of a group is made if it has not been. -/
theorem Consistent.serves_new (hd : d.Consistent p) {g : Nat} {group : String × (Unit → Converter ω)}
    (hg : p.groups[g]? = some group) (hm : g ∉ d.made) :
    Serves p d (some g) ⟨p, d.slots.set g ⟨some (group.2 ())⟩, g :: d.made⟩ := by
  obtain ⟨hlt, -⟩ := List.getElem?_eq_some_iff.mp hg
  refine ⟨⟨rfl, fun g' => ?_, List.nodup_cons.mpr ⟨hm, hd.once⟩, ?_⟩, fun g' => ?_⟩
  · by_cases he : g = g'
    · subst he
      have hs := hd.slots g
      rw [hg] at hs
      have hl : g < d.slots.length := (List.getElem?_eq_some_iff.mp hs).1
      simp [List.getElem?_set_self hl, hg]
    · rw [List.getElem?_set_ne he, hd.slots g']
      simp [List.mem_cons, Ne.symm he]
  · exact List.forall_mem_cons.mpr ⟨hlt, hd.inside⟩
  · rw [List.mem_cons, Option.some_inj]
    constructor
    · rintro (rfl | h)
      · exact .inr ⟨hlt, rfl⟩
      · exact .inl h
    · rintro (h | ⟨-, rfl⟩)
      · exact .inr h
      · exact .inl rfl

/-- The converter of a group is what the plan makes for it, and only that group's is made. -/
theorem converter_spec (hd : d.Consistent p) (g : Nat) :
    (d.converter g).1 = p.converterOf g ∧ Serves p d (some g) (d.converter g).2 := by
  have hs := hd.slots g
  simp only [converter, DispatchPlan.converterOf, hd.plan, hs]
  cases hg : p.groups[g]? with
  | none =>
    refine ⟨rfl, hd.serves_self ?_⟩
    rintro _ ⟨⟩ hlt
    exact absurd hlt (Nat.not_lt.mpr (List.getElem?_eq_none_iff.mp hg))
  | some group =>
    by_cases hm : g ∈ d.made
    · -- the slot is put back as it is
      have hsame : d.slots.set g ⟨some (group.2 ())⟩ = d.slots := by
        rw [hg, Option.map_some, if_pos hm] at hs
        obtain ⟨hl, hv⟩ := List.getElem?_eq_some_iff.mp hs
        rw [← hv]
        exact List.set_getElem_self hl
      have hself : (⟨p, d.slots, d.made⟩ : Dispatcher ω) = d := by rw [← hd.plan]
      simp only [Option.map_some, if_pos hm, Slot.getOrMake, Bool.false_eq_true, if_false, hsame,
        hself]
      refine ⟨trivial, hd.serves_self ?_⟩
      rintro _ ⟨⟩ -
      exact hm
    · simp only [Option.map_some, if_neg hm, Slot.getOrMake, if_true]
      exact ⟨trivial, hd.serves_new hg hm⟩

private theorem converterNamed_spec (hd : d.Consistent p) (name : String) :
    (d.converterNamed name).1 = (p.names.findIdx? (· == name)).bind p.converterOf ∧
      Serves p d (p.names.findIdx? (· == name)) (d.converterNamed name).2 := by
  simp only [converterNamed, hd.plan]
  cases p.names.findIdx? (· == name) with
  | none => exact ⟨rfl, hd.serves_self (by rintro _ ⟨⟩)⟩
  | some g => exact converter_spec hd g

private theorem route_spec (hd : d.Consistent p) (type : String) :
    (d.route type).1 = p.routed type ∧ Serves p d (p.table.groupOf type) (d.route type).2 := by
  simp only [route, DispatchPlan.routed, hd.plan]
  cases p.table.groupOf type with
  | none => exact ⟨rfl, hd.serves_self (by rintro _ ⟨⟩)⟩
  | some g =>
    obtain ⟨hc, hs⟩ := converter_spec hd g
    simp only [Option.bind_some, ← hc]
    rcases hr : d.converter g with ⟨_ | c, d'⟩
    · rw [hr] at hs
      exact ⟨rfl, hs⟩
    · rw [hr] at hs
      exact ⟨rfl, hs⟩

/-- What is done with the converter that a type is routed to. -/
theorem use_spec (hd : d.Consistent p) (type : String)
    (use : Converter ω → Except ConversionError β) :
    let run : Except ConversionError β × Dispatcher ω :=
      match d.route type with
      | (.ok c, d) => (use c, d)
      | (.error e, d) => (.error e, d)
    run.1 = p.routed type >>= use ∧ Serves p d (p.table.groupOf type) run.2 := by
  obtain ⟨hc, hs⟩ := route_spec hd type
  rw [← hc]
  rcases hr : d.route type with ⟨_ | c, d'⟩
  · rw [hr] at hs
    exact ⟨rfl, hs⟩
  · rw [hr] at hs
    exact ⟨rfl, hs⟩

theorem decode_spec (hd : d.Consistent p) (type : String) (r : Record) :
    (d.decode type r).1 = p.decode type r ∧
      Serves p d (p.table.groupOf type) (d.decode type r).2 :=
  use_spec hd type fun c => c.decode type r

theorem encodeAs_spec (hd : d.Consistent p) (object : ω) (type : String) :
    (d.encodeAs object type).1 = p.encodeAs object type ∧
      Serves p d (p.table.groupOf type) (d.encodeAs object type).2 :=
  use_spec hd type fun c => c.encodeAs object type

/-- If converting an item has a result that does not depend on what has been made, what a stream
gives does not either, and it needs what the item needs. -/
theorem pull_spec (convert : Conversion (Dispatcher ω) α β) (result : α → Except ConversionError β)
    (need : α → Option Nat)
    (hc : ∀ a {d : Dispatcher ω}, d.Consistent p →
      (convert a d).1 = result a ∧ Serves p d (need a) (convert a d).2)
    (supply : Supply σ α) (s : IndexedStream σ) (hd : d.Consistent p) :
    (s.pull supply convert d).1 = (s.pull supply (fun a u => (result a, u)) ()).1 ∧
      (s.pull supply convert d).2.1 = (s.pull supply (fun a u => (result a, u)) ()).2.1 ∧
      Serves p d ((s.awaited supply).bind need) (s.pull supply convert d).2.2 := by
  by_cases hh : s.halted
  · simp only [IndexedStream.pull, IndexedStream.awaited, if_pos hh]
    exact ⟨trivial, trivial, hd.serves_self (by rintro _ ⟨⟩)⟩
  · simp only [IndexedStream.pull, IndexedStream.awaited, if_neg hh]
    rcases supply.next s.inner with ⟨_ | a, inner⟩
    · exact ⟨rfl, rfl, hd.serves_self (by rintro _ ⟨⟩)⟩
    · obtain ⟨hr, hs⟩ := hc a hd
      simp only [Option.bind_some, ← hr]
      rcases hv : convert a d with ⟨_ | b, d'⟩
      · rw [hv] at hs
        exact ⟨rfl, rfl, hs⟩
      · rw [hv] at hs
        exact ⟨rfl, rfl, hs⟩

end Dispatcher

section Requests

variable [Typed ω] {p : DispatchPlan ω}

/-- What an open batch gives is what it would give alone. -/
theorem OpenBatch.pull_spec {d : Dispatcher ω} (hd : d.Consistent p) (o : OpenBatch σ ω) :
    (o.pull d).1 = (o.pullAlone p).1 ∧ (o.pull d).2.1 = (o.pullAlone p).2 ∧
      Dispatcher.Serves p d (o.awaited.bind p.table.groupOf) (o.pull d).2.2 := by
  obtain ⟨batch, stream⟩ := o
  cases batch with
  | decoding type supply =>
    obtain ⟨hv, hn, hs⟩ := Dispatcher.pull_spec (fun r d => d.decode type r)
      (fun r => p.decode type r) (fun _ => p.table.groupOf type)
      (fun r {_} hd => Dispatcher.decode_spec hd type r) supply stream hd
    refine ⟨congrArg Response.nextObject hv, congrArg (OpenBatch.mk _) hn, ?_⟩
    simp only [awaited, Option.bind_map]
    exact hs
  | encoding supply =>
    obtain ⟨hv, hn, hs⟩ := Dispatcher.pull_spec (fun object d => d.encode object)
      (fun object => p.encodeAs object (Typed.typeName object))
      (fun object => p.table.groupOf (Typed.typeName object))
      (fun object {_} hd => Dispatcher.encodeAs_spec hd object _) supply stream hd
    refine ⟨congrArg Response.nextRecord hv, congrArg (OpenBatch.mk _) hn, ?_⟩
    simp only [awaited, Option.bind_map]
    exact hs

omit [Typed ω] in
private theorem Request.opened_append (before : List (Request σ ω)) (request : Request σ ω) :
    opened (before ++ [request]) = request.tally (opened before) := by
  simp [opened]

omit [Typed ω] in
/-- Batches are counted from when they were opened. -/
theorem Request.stream_of_mem_opened (requests : List (Request σ ω)) :
    ∀ e ∈ opened requests, e.1.stream = { inner := e.1.stream.inner } := by
  induction requests using List.reverseRecOn with
  | nil =>
    intro e he
    cases he
  | append_singleton before request ih =>
    rw [opened_append]
    cases request with
    | openBatch batch items =>
      intro e he
      rcases List.mem_append.mp he with he | he
      · exact ih e he
      · rw [List.mem_singleton.mp he]
    | pull i =>
      intro e he
      obtain ⟨j, hj⟩ := List.mem_iff_getElem?.mp he
      rw [Request.tally, List.getElem?_modify, Option.map_eq_map, Option.map_eq_some_iff] at hj
      obtain ⟨e', hj, hf⟩ := hj
      have hs := ih e' (List.mem_of_getElem? hj)
      by_cases hij : i = j
      · rw [if_pos hij] at hf
        rw [← hf]
        exact hs
      · rw [if_neg hij] at hf
        rw [← hf]
        exact hs
    | _ => exact ih

omit [Typed ω] in
private theorem Request.opened_replicate (batch : Batch σ ω) (items : σ) (n : Nat) :
    opened (.openBatch batch items :: List.replicate n (.pull 0)) =
      [(⟨batch, { inner := items }⟩, n)] := by
  induction n with
  | zero => rfl
  | succ n ih =>
    rw [List.replicate_succ', ← List.cons_append, opened_append, ih]
    rfl

private theorem needed_append (before : List (Request σ ω)) (request : Request σ ω) (g : Nat) :
    Needed p (before ++ [request]) g ↔
      Needed p before g ∨ g < p.groups.length ∧ request.need p before = some g := by
  constructor
  · rintro ⟨hg, i, hi, hn⟩
    rw [List.length_append, List.length_singleton] at hi
    by_cases hl : i = before.length
    · subst hl
      rw [List.getElem?_concat_length, List.take_left'] at hn
      · exact .inr ⟨hg, hn⟩
      · rfl
    · have hlt : i < before.length := by omega
      rw [List.getElem?_append_left hlt, List.take_append_of_le_length (Nat.le_of_lt hlt)] at hn
      exact .inl ⟨hg, i, hlt, hn⟩
  · rintro (⟨hg, i, hi, hn⟩ | ⟨hg, hn⟩)
    · refine ⟨hg, i, ?_, ?_⟩
      · rw [List.length_append]
        omega
      · rw [List.getElem?_append_left hi, List.take_append_of_le_length (Nat.le_of_lt hi)]
        exact hn
    · refine ⟨hg, before.length, ?_, ?_⟩
      · simp
      · rw [List.getElem?_concat_length, List.take_left' rfl]
        exact hn

namespace Session

/-- Whether a session is as some requests leave it. -/
structure Follows (p : DispatchPlan ω) (before : List (Request σ ω)) (s : Session σ ω) : Prop where
  consistent : s.dispatcher.Consistent p
  mem_made : ∀ g, g ∈ s.dispatcher.made ↔ Needed p before g
  opened : s.opened = (Request.opened before).map fun (o, n) => o.after p n

variable {before : List (Request σ ω)} {s : Session σ ω}

/-- A dispatcher that has served a request follows it. -/
theorem Follows.serve (hs : s.Follows p before) {request : Request σ ω} {d : Dispatcher ω}
    {opened : List (OpenBatch σ ω)} (hd : s.dispatcher.Serves p (request.need p before) d)
    (ho : opened = (request.tally (Request.opened before)).map fun (o, n) => o.after p n) :
    Follows p (before ++ [request]) ⟨d, opened⟩ := by
  refine ⟨hd.consistent, fun g => ?_, ?_⟩
  · rw [needed_append, hd.mem_made, hs.mem_made]
  · rw [Request.opened_append]
    exact ho

/-- One request is answered as it should be and leaves the session as it should be. -/
theorem step_spec (hs : s.Follows p before) (request : Request σ ω) :
    (s.step request).1 = request.answer p before ∧
      (s.step request).2.Follows p (before ++ [request]) := by
  cases request with
  | decode type r =>
    obtain ⟨hr, hd⟩ := Dispatcher.decode_spec hs.consistent type r
    exact ⟨congrArg Response.object hr, hs.serve hd hs.opened⟩
  | encode object =>
    obtain ⟨hr, hd⟩ := Dispatcher.encodeAs_spec hs.consistent object (Typed.typeName object)
    exact ⟨congrArg Response.record hr, hs.serve hd hs.opened⟩
  | encodeAs object type =>
    obtain ⟨hr, hd⟩ := Dispatcher.encodeAs_spec hs.consistent object type
    exact ⟨congrArg Response.record hr, hs.serve hd hs.opened⟩
  | converter group =>
    obtain ⟨hr, hd⟩ := Dispatcher.converter_spec hs.consistent group
    exact ⟨congrArg Response.converter hr, hs.serve hd hs.opened⟩
  | converterNamed name =>
    obtain ⟨hr, hd⟩ := Dispatcher.converterNamed_spec hs.consistent name
    exact ⟨congrArg Response.converter hr, hs.serve hd hs.opened⟩
  | isMade group =>
    have hm : s.dispatcher.isMade group = decide (Needed p before group) := by
      rw [Bool.eq_iff_iff, decide_eq_true_iff, hs.consistent.isMade_iff, hs.mem_made]
    exact ⟨congrArg Response.isMade hm,
      hs.serve (hs.consistent.serves_self (by rintro _ ⟨⟩)) hs.opened⟩
  | openBatch batch items =>
    refine ⟨rfl, hs.serve (hs.consistent.serves_self (by rintro _ ⟨⟩)) ?_⟩
    rw [hs.opened, Request.tally, List.map_append]
    rfl
  | pull i =>
    have hi : s.opened[i]? = ((Request.opened before)[i]?).map fun (o, n) => o.after p n := by
      rw [hs.opened, List.getElem?_map]
    simp only [step, Request.answer, hi]
    cases ho : (Request.opened before)[i]? with
    | none =>
      refine ⟨rfl, hs.serve (hs.consistent.serves_self ?_) ?_⟩
      · simp [Request.need, ho]
      · rw [Request.tally, List.modify_eq_self (List.getElem?_eq_none_iff.mp ho)]
        exact hs.opened
    | some found =>
      obtain ⟨o, n⟩ := found
      obtain ⟨hr, hn, hd⟩ := (o.after p n).pull_spec hs.consistent
      have hneed : (Request.pull i).need p before =
          (o.after p n).awaited.bind p.table.groupOf := by
        rw [Request.need, ho]
        rfl
      refine ⟨hr, hs.serve (hneed ▸ hd) ?_⟩
      rw [Request.tally, List.modify_eq_set_getElem?, ho, Option.map_eq_map, Option.map_some,
        Option.getD_some, List.map_set, hs.opened, hn]
      rfl

/-- A run answers each request as it should be answered after those before it. -/
theorem run_spec (hs : s.Follows p before) (requests : List (Request σ ω)) :
    (run requests s).1.length = requests.length ∧
      (∀ i (r : Request σ ω), requests[i]? = some r →
        (run requests s).1[i]? = some (r.answer p (before ++ requests.take i))) ∧
      (run requests s).2.Follows p (before ++ requests) := by
  induction requests generalizing before s with
  | nil =>
    refine ⟨rfl, ?_, ?_⟩
    · intro i r hr
      cases hr
    · rw [List.append_nil]
      exact hs
  | cons request rest ih =>
    obtain ⟨ha, hn⟩ := step_spec hs request
    obtain ⟨hl, hr, hf⟩ := ih hn
    refine ⟨congrArg (· + 1) hl, ?_, ?_⟩
    · intro i r hi
      cases i with
      | zero =>
        cases hi
        simp only [run, List.take_zero, List.append_nil, ← ha]
        rfl
      | succ i =>
        have hi' := hr i r hi
        rw [List.append_assoc] at hi'
        exact hi'
    · rw [List.append_assoc] at hf
      exact hf

theorem follows_start {d : Dispatcher ω} (h : Dispatcher.start p = .ok d) :
    Follows p ([] : List (Request σ ω)) ⟨d, []⟩ := by
  have hm : d.made = [] := by
    simp only [Dispatcher.start] at h
    split at h
    · cases h
    · cases h
      rfl
  refine ⟨Dispatcher.consistent_start h, fun g => ?_, rfl⟩
  rw [hm]
  constructor
  · intro hg
    cases hg
  · rintro ⟨-, i, hi, -⟩
    exact absurd hi (Nat.not_lt_zero i)

private theorem getLast?_run {d : Dispatcher ω} (h : Dispatcher.start p = .ok d)
    (before : List (Request σ ω)) (request : Request σ ω) :
    (run (before ++ [request]) ⟨d, []⟩).1.getLast? = some (request.answer p before) := by
  obtain ⟨hl, hr, -⟩ := run_spec (follows_start h) (before ++ [request])
  have hlast := hr before.length request List.getElem?_concat_length
  rw [List.nil_append, List.take_left' rfl] at hlast
  rw [List.getLast?_eq_getElem?, hl, ← hlast]
  simp

/-- A request is answered as if nothing else had been asked for. -/
theorem getLast?_run_alone {d : Dispatcher ω} (h : Dispatcher.start p = .ok d)
    (before : List (Request σ ω)) {request : Request σ ω} (hr : ∀ g, request ≠ .isMade g) :
    (run (request.alone before) ⟨d, []⟩).1.getLast? = some (request.answer p before) := by
  cases request with
  | isMade g => exact absurd rfl (hr g)
  | pull i =>
    rw [Request.alone]
    cases ho : (Request.opened before)[i]? with
    | none =>
      have ha := getLast?_run h [] (.pull i : Request σ ω)
      rw [Request.answer, ho]
      exact ha
    | some found =>
      obtain ⟨⟨batch, stream⟩, n⟩ := found
      have hs : stream = { inner := stream.inner } :=
        Request.stream_of_mem_opened before _ (List.mem_of_getElem? ho)
      have ha := getLast?_run h
        (.openBatch batch stream.inner :: List.replicate n (.pull 0)) (.pull 0)
      rw [List.cons_append, ← List.replicate_succ'] at ha
      rw [Request.answer, ho]
      rw [Request.answer, Request.opened_replicate, ← hs] at ha
      exact ha
  | _ => exact getLast?_run h [] _

/-- Whatever is asked of a new dispatcher, in whatever order: no converter is made twice; those that
are made are those that some request needed; and each request is answered as the plan says, which is
as if nothing else had been asked for. -/
theorem run_determined (p : DispatchPlan ω) {d : Dispatcher ω} (h : Dispatcher.start p = .ok d)
    (requests : List (Request σ ω)) :
    (run requests ⟨d, []⟩).2.dispatcher.made.Nodup ∧
      (∀ g, ((run requests ⟨d, []⟩).2.dispatcher.isMade g = true ↔ Needed p requests g) ∧
        (g ∈ (run requests ⟨d, []⟩).2.dispatcher.made ↔ Needed p requests g)) ∧
      (run requests ⟨d, []⟩).1.length = requests.length ∧
      ∀ i (r : Request σ ω), requests[i]? = some r →
        (run requests ⟨d, []⟩).1[i]? = some (r.answer p (requests.take i)) ∧
          ((∀ g, r ≠ .isMade g) → (run requests ⟨d, []⟩).1[i]? =
            (run (r.alone (requests.take i)) ⟨d, []⟩).1.getLast?) := by
  obtain ⟨hl, hr, hf⟩ := run_spec (follows_start h) requests
  refine ⟨hf.consistent.once, fun g => ⟨?_, hf.mem_made g⟩, hl, ?_⟩
  · rw [hf.consistent.isMade_iff, hf.mem_made]
    rfl
  · intro i r hi
    refine ⟨hr i r hi, fun hm => ?_⟩
    rw [getLast?_run_alone h _ hm]
    exact hr i r hi

/-- Two groups with one type each. -/
def pair : DispatchPlan Sample.Object where
  table := ⟨[⟨0, ["pet"]⟩, ⟨1, ["key"]⟩], [("key", 1), ("pet", 0)]⟩
  groups := [("pets", fun _ => Sample.Member.pets.converter),
    ("keywords", fun _ => Sample.Member.keywords.converter)]

/-- A batch is opened, and one item of it is asked for after a type that no group has. -/
def pairRequests : List (Request (List Record) Sample.Object) :=
  [.openBatch (.decoding "pet" .ofList) [[], []], .isMade 0, .decode "stranger" [], .pull 0]

theorem run_determined_pair :
    Dispatcher.start pair = .ok ⟨pair, [{}, {}], []⟩ ∧
      (run pairRequests ⟨⟨pair, [{}, {}], []⟩, []⟩).2.dispatcher.isMade 0 = true ∧
      (run pairRequests ⟨⟨pair, [{}, {}], []⟩, []⟩).2.dispatcher.isMade 1 = false ∧
      (run pairRequests ⟨⟨pair, [{}, {}], []⟩, []⟩).1[1]? = some (.isMade false) := by
  have hs : Dispatcher.start pair = .ok ⟨pair, [{}, {}], []⟩ := rfl
  obtain ⟨-, hm, -, ha⟩ := run_determined pair hs pairRequests
  refine ⟨hs, (hm 0).1.mpr (by decide), ?_, ?_⟩
  · have hn : ¬Needed pair pairRequests 1 := by decide
    rw [← (hm 1).1] at hn
    exact Bool.eq_false_iff.mpr hn
  · have hn : ¬Needed pair (pairRequests.take 1) 0 := by decide
    rw [(ha 1 _ rfl).1, Request.answer, decide_eq_false hn]

end Session

end Requests

end Switchboard
