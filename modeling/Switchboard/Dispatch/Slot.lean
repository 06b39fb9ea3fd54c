/-! Slots: places for one value each, made when it is first asked for. -/

namespace Switchboard

/-- A place for a value that may not have been made yet. -/
structure Slot (α : Type) where
  value : Option α := none
deriving DecidableEq, Repr

namespace Slot

/-- Whether the value has been made. -/
def isFilled (s : Slot α) : Bool := s.value.isSome

/-- The value, made now if there was none, and whether it was. -/
def getOrMake (make : Unit → α) (s : Slot α) : α × Slot α × Bool :=
  match s.value with
  | some a => (a, s, false)
  | none =>
    let a := make ()
    (a, ⟨some a⟩, true)

/-- The slot as it is shown. The value is not. -/
def shown (s : Slot α) : String :=
  s!"ConverterSlot \x7b initialized: {s.isFilled} \x7d"

end Slot

end Switchboard
