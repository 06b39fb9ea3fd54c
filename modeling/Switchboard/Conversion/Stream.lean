import Switchboard.Conversion.Error

/-! Indexed streams: items are converted one by one as they are asked for, each with its position.
The first error ends the stream. -/

namespace Switchboard

/-- Where items come from: what is next, and the most that may still come. After there was nothing
there may be something again. -/
structure Supply (σ α : Type) where
  next : σ → Option α × σ
  upper : σ → Option Nat

namespace Supply

/-- The items of a list in order. -/
def ofList : Supply (List α) α where
  next
    | [] => (none, [])
    | a :: rest => (some a, rest)
  upper items := some items.length

/-- The items of a list that pass a test. How many do is not known beforehand. -/
def filtered (keep : α → Bool) : Supply (List α) α where
  next items := ofList.next (items.dropWhile fun a => !keep a)
  upper items := some items.length

end Supply

/-- A stream that has come to some position, and may have been ended by an error. -/
structure IndexedStream (σ : Type) where
  inner : σ
  position : Nat := 0
  halted : Bool := false
deriving Repr

/-- A way to convert an item, which may change a state. -/
abbrev Conversion (κ α β : Type) := α → κ → Except ConversionError β × κ

/-- What a stream gives when it is asked: nothing, or an item with its position, or an error. -/
abbrev Pulled (β : Type) := Option (Except ConversionError (Nat × β))

namespace IndexedStream

variable {σ α β κ : Type}

/-- What the stream gives next. Only an item that is asked for is converted. -/
def pull (supply : Supply σ α) (convert : Conversion κ α β) (s : IndexedStream σ) (k : κ) :
    Pulled β × IndexedStream σ × κ :=
  if s.halted then (none, s, k)
  else
    match supply.next s.inner with
    | (none, inner) => (none, { s with inner }, k)
    | (some a, inner) =>
      match convert a k with
      | (.ok b, k) => (some (.ok (s.position, b)), ⟨inner, s.position + 1, false⟩, k)
      | (.error e, k) => (some (.error e), ⟨inner, s.position + 1, true⟩, k)

/-- The least and the most that the stream may still give. An error may end it at any time. -/
def hint (supply : Supply σ α) (s : IndexedStream σ) : Nat × Option Nat :=
  if s.halted then (0, some 0) else (0, supply.upper s.inner)

/-- How much the stream gives until it gives nothing, up to a bound. -/
def count (supply : Supply σ α) (convert : Conversion κ α β) :
    Nat → IndexedStream σ → κ → Nat × IndexedStream σ × κ
  | 0, s, k => (0, s, k)
  | n + 1, s, k =>
    match pull supply convert s k with
    | (none, s, k) => (0, s, k)
    | (some _, s, k) =>
      let (more, s, k) := count supply convert n s k
      (more + 1, s, k)

end IndexedStream

end Switchboard
