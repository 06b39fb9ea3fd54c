import Switchboard.Proofs.Streams

/-! When a stream that has given nothing gives nothing from then on. An error ends it for good, but
that its items have run out is not remembered: it goes on just if its supply does. -/

namespace Switchboard

variable {σ α β κ : Type}

/-- Whether a supply gives nothing any more. -/
def Supply.IsDry (supply : Supply σ α) (s : σ) : Prop :=
  ∀ n, (supply.next (supply.after s n)).1 = none

private theorem Supply.after_next (supply : Supply σ α) (s : σ) (n : Nat) :
    supply.after (supply.next s).2 n = supply.after s (n + 1) := by
  induction n with
  | zero => rfl
  | succ n ih => exact congrArg (fun s => (supply.next s).2) ih

private theorem Supply.isDry_iff_next {supply : Supply σ α} {s : σ} :
    supply.IsDry s ↔ (supply.next s).1 = none ∧ supply.IsDry (supply.next s).2 := by
  constructor
  · intro h
    refine ⟨h 0, fun n => ?_⟩
    rw [after_next]
    exact h (n + 1)
  · rintro ⟨hfirst, hrest⟩ n
    cases n with
    | zero => exact hfirst
    | succ n =>
      rw [← after_next]
      exact hrest n

namespace IndexedStream

/-- Whether a stream gives nothing any more, however often it is asked. -/
def IsSpent (supply : Supply σ α) (convert : Conversion κ α β) (s : IndexedStream σ) (k : κ) :
    Prop :=
  ∀ calls, ∀ next ∈ (asked (pull supply convert) calls s k).1, next = none

variable {supply : Supply σ α} {convert : Conversion κ α β} {s : IndexedStream σ} {k : κ}

private theorem isSpent_iff_pull :
    IsSpent supply convert s k ↔ (s.pull supply convert k).1 = none ∧
      IsSpent supply convert (s.pull supply convert k).2.1 (s.pull supply convert k).2.2 := by
  constructor
  · intro h
    refine ⟨h 1 _ (List.mem_singleton_self _), fun calls next hn => ?_⟩
    exact h (calls + 1) next (List.mem_cons_of_mem _ hn)
  · rintro ⟨hfirst, hrest⟩ calls next hn
    cases calls with
    | zero => cases hn
    | succ calls =>
      rcases List.mem_cons.mp hn with rfl | hn
      · exact hfirst
      · exact hrest calls next hn

/-- A stream that an error has ended stays as it is. -/
theorem isSpent_of_halted (h : s.halted = true) : IsSpent supply convert s k := by
  intro calls
  induction calls with
  | zero =>
    intro next hn
    cases hn
  | succ calls ih =>
    intro next hn
    rw [asked, pull, if_pos h] at hn
    rcases List.mem_cons.mp hn with rfl | hn
    · rfl
    · exact ih next hn

/-- A stream with nothing to convert gives nothing. -/
theorem isSpent_of_isDry (h : supply.IsDry s.inner) : IsSpent supply convert s k := by
  cases hh : s.halted with
  | true => exact isSpent_of_halted hh
  | false =>
    intro calls
    induction calls generalizing s with
    | zero =>
      intro next hn
      cases hn
    | succ calls ih =>
      obtain ⟨hnone, hrest⟩ := Supply.isDry_iff_next.mp h
      intro next hn
      rw [asked, pull_of_next_eq_none convert k hh hnone] at hn
      rcases List.mem_cons.mp hn with rfl | hn
      · rfl
      · exact ih (s := { s with inner := (supply.next s.inner).2 }) hrest hh next hn

private theorem isSpent_iff :
    IsSpent supply convert s k ↔ s.halted = true ∨ supply.IsDry s.inner := by
  refine ⟨fun h => or_iff_not_imp_left.mpr fun hh => ?_, ?_⟩
  · rw [Bool.not_eq_true] at hh
    -- by induction on how often the supply is asked; the state does not change
    intro n
    induction n generalizing s with
    | zero =>
      obtain ⟨hfirst, -⟩ := isSpent_iff_pull.mp h
      cases hn : (supply.next s.inner).1 with
      | none => exact hn
      | some a =>
        rw [pull_of_next_eq_some convert k hh hn] at hfirst
        cases hfirst
    | succ n ih =>
      obtain ⟨hfirst, hrest⟩ := isSpent_iff_pull.mp h
      cases hn : (supply.next s.inner).1 with
      | some a =>
        rw [pull_of_next_eq_some convert k hh hn] at hfirst
        cases hfirst
      | none =>
        rw [pull_of_next_eq_none convert k hh hn] at hrest
        rw [← Supply.after_next]
        exact ih (s := { s with inner := (supply.next s.inner).2 }) hrest hh
  · rintro (h | h)
    · exact isSpent_of_halted h
    · exact isSpent_of_isDry h

/-- Streams over a supply give nothing after they have given nothing, just if the supply itself
does. How items are converted is of no matter. -/
theorem isSpent_after_none_iff (supply : Supply σ α) (convert : Conversion κ α β) (k : κ) :
    (∀ s : IndexedStream σ, (s.pull supply convert k).1 = none →
      IsSpent supply convert (s.pull supply convert k).2.1 (s.pull supply convert k).2.2) ↔
    ∀ inner, (supply.next inner).1 = none → supply.IsDry (supply.next inner).2 := by
  constructor
  · intro h inner hn
    have hs := h { inner }
    rw [pull_of_next_eq_none convert k rfl hn] at hs
    rcases isSpent_iff.mp (hs rfl) with hh | hd
    · cases hh
    · exact hd
  · intro h s hs
    cases hh : s.halted with
    | true =>
      rw [pull, if_pos hh]
      exact isSpent_of_halted hh
    | false =>
      cases hn : (supply.next s.inner).1 with
      | none =>
        rw [pull_of_next_eq_none convert k hh hn]
        exact isSpent_of_isDry (h s.inner hn)
      | some a =>
        rw [pull_of_next_eq_some convert k hh hn] at hs
        cases hs

/-- A supply that has nothing at first and then gives one number after the other. -/
def late : Supply Nat Nat where
  next
    | 0 => (none, 1)
    | n + 1 => (some n, n + 2)
  upper _ := none

/-- A stream may give nothing and then something. -/
theorem asked_late :
    (asked (pull late fun n (_ : Unit) => (.ok n, ())) 3 { inner := 0 } ()).1 =
      [none, some (.ok (0, 0)), some (.ok (1, 1))] := rfl

end IndexedStream

end Switchboard
