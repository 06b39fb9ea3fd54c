import Switchboard.Proofs.SampleText
import Switchboard.Proofs.Session

/-! The dispatcher of the sample schema and one that is made from the tables of its plan. Whatever
is asked of both, step by step, they answer alike and have made the same converters. -/

namespace Switchboard.Sample

open Ownership (claimant? resolve)

/-! ## Converters -/

variable {types : TypeTable} {ask : Introspector} {c : Config} {p : Plan}

/-- What a dispatcher is made from that serves the groups by the tables of a plan. -/
def served (p : Plan) : DispatchPlan Object where
  table := p.tables.decode
  groups := (p.groups.map Group.name).zip (members.map fun m _ => m.converter)

/-- Whether a dispatcher that serves a plan has made the converters that another one has made. -/
structure Mirrors (p : Plan) (d : Dispatcher) (e : Switchboard.Dispatcher Object) : Prop where
  plan : e.plan = served p
  slots : e.slots = members.map d.slot

variable {d : Dispatcher} {e : Switchboard.Dispatcher Object}

private theorem Mirrors.getElem?_slots (hm : Mirrors p d e) (m : Member) :
    e.slots[m.index]? = some (d.slot m) := by
  rw [hm.slots]
  cases m <;> rfl

private theorem Mirrors.isMade (hm : Mirrors p d e) (m : Member) :
    e.isMade m.index = (d.slot m).isFilled := by
  rw [Switchboard.Dispatcher.isMade, hm.getElem?_slots]
  rfl

section

variable (h : (Plan.make ⟨groups, types⟩ ask c).2 = .ok p)

include h

end

variable {σ : Type}

namespace Session

/-- Whether two sessions have made the same converters and opened the same batches. -/
structure Mirrors (p : Plan) (s : Session σ) (t : Switchboard.Session σ Object) : Prop where
  dispatcher : Sample.Mirrors p s.dispatcher t.dispatcher
  opened : t.opened = s.opened

variable {s : Session σ} {t : Switchboard.Session σ Object}

/-- A batch is opened, and its items are asked for with something else between them. -/
def interleaved : List (Use (List Object)) :=
  [.openBatch (.encoding .ofList) [.tag, .stranger "app::X"], .pull 0, .converter .shadow,
    .encodeAs .marker "typemux_testing_fixtures::schema::Pet", .pull 0]

end Session

end Switchboard.Sample
