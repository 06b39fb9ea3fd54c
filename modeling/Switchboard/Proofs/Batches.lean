import Switchboard.Proofs.Session
import Switchboard.Proofs.Streams

/-! Batches of a dispatcher: what is given for many records or many objects, each converted as its
type is routed. A batch is a stream, and its dispatcher may have been used in any way before. -/

namespace Switchboard

variable {σ ω α β κ : Type}

open Conversion IndexedStream

/-- What comes of asking for so many items of a batch, each of which is converted as some type. -/
structure DispatchPlan.BatchAnswers (p : DispatchPlan ω) (supply : Supply σ α)
    (convert : Conversion (Dispatcher ω) α β) (result : α → Except ConversionError β)
    (type : α → String) (items : List α) (inner : σ) (d : Dispatcher ω) (calls : Nat)
    (run : List (Pulled β) × IndexedStream σ × Dispatcher ω) : Prop where
  answers : Answers supply convert items inner d calls run
  results : ∀ i, convert.result? items d i = items[i]?.map result
  unrouted : (∀ a, items.head? = some a → p.table.groupOf (type a) = none) →
    run.1 = (List.range calls).map fun i =>
      if i = 0 then items.head?.map fun a => .error (.unmatched (type a)) else none

private theorem DispatchPlan.routed_of_groupOf_eq_none {p : DispatchPlan ω} {type : String}
    (h : p.table.groupOf type = none) : p.routed type = .error (.unmatched type) := by
  rw [routed, h]
  rfl

private theorem Dispatcher.Consistent.batchAnswers {p : DispatchPlan ω} {d : Dispatcher ω}
    (hd : d.Consistent p) {convert : Conversion (Dispatcher ω) α β} {type : α → String}
    {use : α → Converter ω → Except ConversionError β}
    (hc : ∀ a {d : Dispatcher ω}, d.Consistent p → (convert a d).1 = p.routed (type a) >>= use a ∧
      Serves p d (p.table.groupOf (type a)) (convert a d).2)
    {supply : Supply σ α} {items : List α} {inner : σ} (h : supply.Lists items inner)
    (calls : Nat) :
    p.BatchAnswers supply convert (fun a => p.routed (type a) >>= use a) type items inner d calls
      (asked (pull supply convert) calls { inner } d) where
  answers := answers_asked h convert d calls
  results := convert.result?_eq_map items (Consistent p) _
    (fun a _ hd => ⟨(hc a hd).1, (hc a hd).2.consistent⟩) hd
  unrouted hu := asked_of_head_fails h _ (fun a ha => by
    rw [(hc a hd).1, DispatchPlan.routed_of_groupOf_eq_none (hu a ha)]
    rfl) calls

/-- A stream gives the items before the first failure, then the failure, then nothing, whatever the
items are, however they are converted and however often it is asked. Batches of a dispatcher that
has been used in any way do the same, and each item is converted as the plan says. If the type of
the first is in no group, there is just that one error. -/
theorem answers_streams_and_batches {τ : Type} [Typed ω] :
    (∀ {supply : Supply σ α} {items : List α} {inner : σ}, supply.Lists items inner →
      ∀ (convert : Conversion κ α β) (k : κ) (calls : Nat),
        Answers supply convert items inner k calls
          (asked (pull supply convert) calls { inner } k)) ∧
    ∀ {p : DispatchPlan ω} {new d : Dispatcher ω} (requests : List (Request τ ω)),
      Dispatcher.start p = .ok new → d = (Session.run requests ⟨new, []⟩).2.dispatcher →
      (∀ {supply : Supply σ Record} {records : List Record} {inner : σ},
        supply.Lists records inner → ∀ type calls,
          p.BatchAnswers supply (fun r d => d.decode type r) (p.decode type) (fun _ => type) records
            inner d calls (asked (Dispatcher.decodeNext supply type) calls { inner } d)) ∧
      ∀ {supply : Supply σ ω} {objects : List ω} {inner : σ},
        supply.Lists objects inner → ∀ calls,
          p.BatchAnswers supply (fun object d => d.encode object)
            (fun object => p.encodeAs object (Typed.typeName object)) Typed.typeName objects inner d
            calls (asked (Dispatcher.encodeNext supply) calls { inner } d) := by
  refine ⟨fun h convert k calls => answers_asked h convert k calls, ?_⟩
  rintro p new d requests hp rfl
  have hd := (Session.run_spec (Session.follows_start hp) requests).2.2.consistent
  refine ⟨fun h type calls => ?_, fun h calls => ?_⟩
  · exact hd.batchAnswers (fun r _ hd => Dispatcher.decode_spec hd type r) h calls
  · exact hd.batchAnswers
      (fun object _ hd => Dispatcher.encodeAs_spec hd object (Typed.typeName object)) h calls

/-- A number is converted if it is not smaller than how many have been converted before. -/
def ascending : Conversion Nat Nat Nat := fun n before =>
  (if before ≤ n then .ok (n - before) else .error (.unmatched "falling"), before + 1)

theorem answers_streams_and_batches_pair :
    (Supply.filtered (· != 5)).Lists [4, 0, 7] [5, 4, 5, 0, 7] ∧
      (∃ e, some (.error e) ∈
        (asked (pull (.filtered (· != 5)) ascending) 3 { inner := [5, 4, 5, 0, 7] } 0).1) ∧
      Dispatcher.start Session.pair = .ok ⟨Session.pair, [{}, {}], []⟩ ∧
      (asked (Dispatcher.decodeNext .ofList "stranger") 3 { inner := [[], []] }
        (Session.run Session.pairRequests ⟨⟨Session.pair, [{}, {}], []⟩, []⟩).2.dispatcher).1 =
          [some (.error (.unmatched "stranger")), none, none] := by
  have hl := Supply.lists_filtered (· != 5) [5, 4, 5, 0, 7]
  have hs : Dispatcher.start Session.pair = .ok ⟨Session.pair, [{}, {}], []⟩ := rfl
  obtain ⟨hstream, -⟩ := answers_streams_and_batches (σ := List Nat) (α := Nat) (β := Nat)
    (κ := Nat) (ω := Sample.Object) (τ := List Record)
  obtain ⟨-, hbatch⟩ := answers_streams_and_batches (σ := List Record) (α := Nat) (β := Nat)
    (κ := Nat) (ω := Sample.Object) (τ := List Record)
  obtain ⟨e, -, he⟩ := (hstream hl ascending 0 3).failed (by decide) (by decide)
  obtain ⟨hdecode, -⟩ := hbatch Session.pairRequests hs rfl
  refine ⟨hl, ⟨e, List.mem_of_getElem? he⟩, hs, ?_⟩
  rw [(hdecode (Supply.lists_ofList [[], []]) "stranger" 3).unrouted fun _ _ => by decide]
  rfl

end Switchboard
