import Mathlib.Data.List.Basic
import Mathlib.Data.List.Induction
import Switchboard.Conversion.Stream

/-! What an indexed stream gives, however often it is asked: the items before the first failure,
each with its position, then the failure, then nothing. An item is converted when it is asked for
and not before, and none is converted after a failure. -/

namespace Switchboard

variable {σ ω α β κ : Type}

/-! ## Where items come from -/

namespace Supply

/-- The supply when it has been asked so many times. -/
def after (supply : Supply σ α) (s : σ) : Nat → σ
  | 0 => s
  | n + 1 => (supply.next (supply.after s n)).2

/-- Whether a supply gives some items in order and then nothing for ever, and never says that fewer
may come than do. -/
structure Lists (supply : Supply σ α) (items : List α) (s : σ) : Prop where
  next : ∀ n, (supply.next (supply.after s n)).1 = items[n]?
  upper : ∀ n most, supply.upper (supply.after s n) = some most → items.length - n ≤ most

/-- A supply gives the items that are seen in it if being asked takes the first of them away. -/
theorem lists_of_view {supply : Supply σ α} (view : σ → List α)
    (hn : ∀ s, (supply.next s).1 = (view s).head? ∧ view (supply.next s).2 = (view s).tail)
    (hu : ∀ s most, supply.upper s = some most → (view s).length ≤ most) (s : σ) :
    supply.Lists (view s) s := by
  have hv (n : Nat) : view (supply.after s n) = (view s).drop n := by
    induction n with
    | zero => rfl
    | succ n ih => rw [after, (hn _).2, ih, List.tail_drop]
  constructor
  · intro n
    rw [(hn _).1, hv, List.head?_drop]
  · intro n most hm
    have := hu _ most hm
    rwa [hv, List.length_drop] at this

theorem lists_ofList (items : List α) : ofList.Lists items items :=
  lists_of_view id (fun s => by cases s <;> exact ⟨rfl, rfl⟩)
    (fun _ _ h => Nat.le_of_eq (Option.some.inj h)) items

theorem lists_filtered (keep : α → Bool) (items : List α) :
    (filtered keep).Lists (items.filter keep) items := by
  refine lists_of_view (List.filter keep) (fun s => ?_) (fun s most h => ?_) items
  · induction s with
    | nil => exact ⟨rfl, rfl⟩
    | cons a rest ih =>
      cases ha : keep a with
      | true => simp [filtered, ofList, ha]
      | false => simpa [filtered, ha] using ih
  · exact Option.some.inj h ▸ List.length_filter_le keep s

end Supply

/-! ## Converting one after the other -/

namespace Conversion

/-- The state when some items have been converted in order. -/
def stateAfter (convert : Conversion κ α β) (items : List α) (k : κ) : κ :=
  items.foldl (fun k a => (convert a k).2) k

/-- What the item at a position is converted to when those before it have been converted. -/
def result? (convert : Conversion κ α β) (items : List α) (k : κ) (i : Nat) :
    Option (Except ConversionError β) :=
  items[i]?.map fun a => (convert a (convert.stateAfter (items.take i) k)).1

/-- The position of the first item that fails, or how many items there are if none does. -/
def firstFailure (convert : Conversion κ α β) : List α → κ → Nat
  | [], _ => 0
  | a :: rest, k =>
    match convert a k with
    | (.ok _, k) => firstFailure convert rest k + 1
    | (.error _, _) => 0

/-- The same conversion, which also notes what it is called on. -/
def recorded (convert : Conversion κ α β) : Conversion (κ × List α) α β := fun a (k, log) =>
  let (result, k) := convert a k
  (result, k, log ++ [a])

variable (convert : Conversion κ α β) (items : List α) (k : κ)

private theorem stateAfter_take_succ {i : Nat} {a : α} (h : items[i]? = some a) :
    convert.stateAfter (items.take (i + 1)) k =
      (convert a (convert.stateAfter (items.take i) k)).2 := by
  simp [stateAfter, List.take_add_one, h]

private theorem firstFailure_le_length : convert.firstFailure items k ≤ items.length := by
  induction items generalizing k with
  | nil => exact Nat.le_refl 0
  | cons a rest ih =>
    rw [firstFailure]
    rcases convert a k with ⟨_ | b, k'⟩
    · exact Nat.zero_le _
    · exact Nat.succ_le_succ (ih k')

/-- Items before the first failure do not fail. -/
theorem exists_result?_of_lt {i : Nat} (h : i < convert.firstFailure items k) :
    ∃ b, convert.result? items k i = some (.ok b) := by
  induction items generalizing k i with
  | nil => cases h
  | cons a rest ih =>
    rw [firstFailure] at h
    rcases hc : convert a k with ⟨_ | b, k'⟩
    · rw [hc] at h
      cases h
    · rw [hc] at h
      cases i with
      | zero => exact ⟨b, by simp [result?, stateAfter, hc]⟩
      | succ i =>
        obtain ⟨b', hb⟩ := ih k' (Nat.lt_of_succ_lt_succ h)
        refine ⟨b', ?_⟩
        rw [← hb]
        simp [result?, stateAfter, hc]

/-- The item at the first failure fails. -/
theorem exists_result?_firstFailure (h : convert.firstFailure items k < items.length) :
    ∃ e, convert.result? items k (convert.firstFailure items k) = some (.error e) := by
  induction items generalizing k with
  | nil => cases h
  | cons a rest ih =>
    rw [firstFailure] at h ⊢
    rcases hc : convert a k with ⟨e | b, k'⟩
    · exact ⟨e, by simp [result?, stateAfter, hc]⟩
    · rw [hc] at h
      obtain ⟨e, he⟩ := ih k' (Nat.lt_of_succ_lt_succ h)
      refine ⟨e, ?_⟩
      rw [← he]
      simp [result?, stateAfter, hc]

private theorem stateAfter_recorded (log : List α) :
    convert.recorded.stateAfter items (k, log) = (convert.stateAfter items k, log ++ items) := by
  induction items generalizing k log with
  | nil => simp [stateAfter]
  | cons a rest ih =>
    have hs := ih (convert a k).2 (log ++ [a])
    rw [List.append_assoc] at hs
    exact hs

private theorem result?_recorded (log : List α) :
    convert.recorded.result? items (k, log) = convert.result? items k := by
  funext i
  simp only [result?, stateAfter_recorded]
  rfl

private theorem firstFailure_recorded (log : List α) :
    convert.recorded.firstFailure items (k, log) = convert.firstFailure items k := by
  induction items generalizing k log with
  | nil => rfl
  | cons a rest ih =>
    rw [firstFailure, firstFailure, recorded]
    rcases convert a k with ⟨_ | b, k'⟩
    · rfl
    · exact congrArg (· + 1) (ih k' (log ++ [a]))

/-- If results do not depend on the state as long as the state has some property, each item has its
own result. -/
theorem result?_eq_map (Fine : κ → Prop) (result : α → Except ConversionError β)
    (hc : ∀ a k, Fine k → (convert a k).1 = result a ∧ Fine (convert a k).2)
    {k : κ} (hk : Fine k) (i : Nat) :
    convert.result? items k i = items[i]?.map result := by
  have hfine (before : List α) : Fine (convert.stateAfter before k) := by
    induction before using List.reverseRecOn with
    | nil => exact hk
    | append_singleton before a ih =>
      rw [stateAfter, List.foldl_append]
      exact (hc a _ ih).2
  exact congrArg (items[i]?.map ·) (funext fun a => (hc a _ (hfine _)).1)

end Conversion

/-! ## Asking again and again -/

namespace IndexedStream

open Conversion

/-- What is given when a stream is asked so many times, and what the stream and the state are then.
-/
def asked (next : IndexedStream σ → κ → Pulled β × IndexedStream σ × κ) :
    Nat → IndexedStream σ → κ → List (Pulled β) × IndexedStream σ × κ
  | 0, s, k => ([], s, k)
  | n + 1, s, k =>
    let (first, s, k) := next s k
    let (rest, s, k) := asked next n s k
    (first :: rest, s, k)

/-- What is given for an item, and that the stream is ended just if the item fails. -/
theorem pull_of_next_eq_some {supply : Supply σ α} (convert : Conversion κ α β) (k : κ)
    {s : IndexedStream σ} {a : α} (hh : s.halted = false)
    (hn : (supply.next s.inner).1 = some a) :
    s.pull supply convert k = (some ((convert a k).1.map (s.position, ·)),
      ⟨(supply.next s.inner).2, s.position + 1, !(convert a k).1.isOk⟩, (convert a k).2) := by
  rw [pull, hh, if_neg Bool.false_ne_true]
  rcases hs : supply.next s.inner with ⟨_ | a', inner⟩
  · rw [hs] at hn
    cases hn
  · rw [hs] at hn
    cases hn
    dsimp only
    rcases convert a k with ⟨_ | b, k'⟩ <;> rfl

theorem pull_of_next_eq_none {supply : Supply σ α} (convert : Conversion κ α β) (k : κ)
    {s : IndexedStream σ} (hh : s.halted = false) (hn : (supply.next s.inner).1 = none) :
    s.pull supply convert k = (none, { s with inner := (supply.next s.inner).2 }, k) := by
  rw [pull, hh, if_neg Bool.false_ne_true]
  rcases hs : supply.next s.inner with ⟨_ | a', inner⟩
  · rfl
  · rw [hs] at hn
    cases hn

/-- How many items have been converted after so many calls. -/
def convertedAfter (convert : Conversion κ α β) (items : List α) (k : κ) (calls : Nat) : Nat :=
  min calls (min (convert.firstFailure items k + 1) items.length)

/-- What the call at a position gives. -/
def given (convert : Conversion κ α β) (items : List α) (k : κ) (i : Nat) : Pulled β :=
  if i ≤ convert.firstFailure items k then (convert.result? items k i).map (Except.map (i, ·))
  else none

/-- Whether a stream and the state are as so many calls leave them. -/
structure Reached (supply : Supply σ α) (convert : Conversion κ α β) (items : List α) (inner : σ)
    (k : κ) (calls : Nat) (s : IndexedStream σ) (k' : κ) : Prop where
  /-- A stream that has been ended asks for no more items. -/
  inner : s.inner = supply.after inner
    (if convert.firstFailure items k < items.length then
      min calls (convert.firstFailure items k + 1) else calls)
  position : s.position = convertedAfter convert items k calls
  halted : s.halted =
    decide (convert.firstFailure items k < items.length ∧ convert.firstFailure items k < calls)
  state : k' = convert.stateAfter (items.take (convertedAfter convert items k calls)) k

section Lists

variable {supply : Supply σ α} {items : List α} {inner : σ}
variable {convert : Conversion κ α β} {k : κ} {calls : Nat} {s : IndexedStream σ} {k' : κ}

private theorem reached_start (convert : Conversion κ α β) (k : κ) :
    Reached supply convert items inner k 0 { inner } k := by
  constructor <;> simp [convertedAfter, Supply.after, stateAfter]

/-- Whether a call gives what it should and leaves the stream as one more call does. -/
def Advances (supply : Supply σ α) (convert : Conversion κ α β) (items : List α) (inner : σ)
    (k : κ) (calls : Nat) (called : Pulled β × IndexedStream σ × κ) : Prop :=
  called.1 = given convert items k calls ∧
    Reached supply convert items inner k (calls + 1) called.2.1 called.2.2

/-- A stream that has been ended stays as it is. -/
theorem Reached.advances_of_ended (hs : Reached supply convert items inner k calls s k')
    (hend : convert.firstFailure items k < items.length ∧ convert.firstFailure items k < calls) :
    Advances supply convert items inner k calls (s.pull supply convert k') := by
  obtain ⟨hi, hp, hh, rfl⟩ := hs
  have hsame : convertedAfter convert items k (calls + 1) =
      convertedAfter convert items k calls := by
    simp only [convertedAfter]
    omega
  rw [pull, if_pos (hh.trans (decide_eq_true hend)), Advances, given,
    if_neg (Nat.not_le.mpr hend.2)]
  refine ⟨rfl, ⟨?_, hp.trans hsame.symm, ?_, by rw [hsame]⟩⟩
  · rw [hi, if_pos hend.1, if_pos hend.1]
    congr 1
    omega
  · rw [hh, decide_eq_true hend]
    exact (decide_eq_true ⟨hend.1, by omega⟩).symm

/-- A stream that has not been ended has asked for an item at every call. -/
theorem Reached.inner_of_not_ended (hs : Reached supply convert items inner k calls s k')
    (hend : ¬(convert.firstFailure items k < items.length ∧
      convert.firstFailure items k < calls)) :
    s.halted = false ∧ s.inner = supply.after inner calls := by
  refine ⟨hs.halted.trans (decide_eq_false hend), ?_⟩
  rw [hs.inner]
  split
  · congr 1
    omega
  · rfl

/-- Nothing is given when no item is left. -/
theorem Reached.advances_of_exhausted (h : supply.Lists items inner)
    (hs : Reached supply convert items inner k calls s k')
    (hend : ¬(convert.firstFailure items k < items.length ∧ convert.firstFailure items k < calls))
    (hout : items.length ≤ calls) :
    Advances supply convert items inner k calls (s.pull supply convert k') := by
  have hle := convert.firstFailure_le_length items k
  obtain ⟨hopen, hasked⟩ := hs.inner_of_not_ended hend
  obtain ⟨-, hp, -, rfl⟩ := hs
  have hnone : items[calls]? = none := List.getElem?_eq_none_iff.mpr hout
  have hsame : convertedAfter convert items k (calls + 1) =
      convertedAfter convert items k calls := by
    simp only [convertedAfter]
    omega
  rw [pull_of_next_eq_none convert _ hopen (by rw [hasked, h.next, hnone]), Advances, given,
    result?, hnone]
  refine ⟨by simp, ⟨?_, hp.trans hsame.symm, ?_, by rw [hsame]⟩⟩
  · rw [if_neg (by omega), hasked]
    rfl
  · exact hopen.trans (decide_eq_false (by omega)).symm

/-- The next item is converted, and the stream is ended if that fails. -/
theorem Reached.advances_of_item (h : supply.Lists items inner)
    (hs : Reached supply convert items inner k calls s k')
    (hend : ¬(convert.firstFailure items k < items.length ∧ convert.firstFailure items k < calls))
    (hin : calls < items.length) :
    Advances supply convert items inner k calls (s.pull supply convert k') := by
  obtain ⟨hopen, hasked⟩ := hs.inner_of_not_ended hend
  obtain ⟨-, hp, -, rfl⟩ := hs
  have ha : items[calls]? = some items[calls] := List.getElem?_eq_getElem hin
  have hcount : convertedAfter convert items k calls = calls := by
    simp only [convertedAfter]
    omega
  have hcount' : convertedAfter convert items k (calls + 1) = calls + 1 := by
    simp only [convertedAfter]
    omega
  have hr : convert.result? items k calls =
      some (convert items[calls] (convert.stateAfter (items.take calls) k)).1 := by
    rw [result?, ha, Option.map_some]
  rw [hcount] at hp ⊢
  rw [pull_of_next_eq_some convert _ hopen (by rw [hasked, h.next, ha]), Advances, given,
    if_pos (by omega), hr, hp]
  refine ⟨rfl, ⟨?_, hcount'.symm, ?_, ?_⟩⟩
  · rw [hasked]
    split
    · rw [Nat.min_eq_left (by omega)]
      rfl
    · rfl
  · by_cases hlt : calls < convert.firstFailure items k
    · obtain ⟨b, hb⟩ := convert.exists_result?_of_lt items k hlt
      rw [← Option.some.inj (hr.symm.trans hb).symm]
      exact (decide_eq_false (by omega)).symm
    · have heq : convert.firstFailure items k = calls := by omega
      obtain ⟨e, he⟩ := convert.exists_result?_firstFailure items k (by omega)
      rw [heq] at he
      rw [← Option.some.inj (hr.symm.trans he).symm]
      exact (decide_eq_true (by omega)).symm
  · rw [hcount', convert.stateAfter_take_succ items k ha]

private theorem Reached.advances (h : supply.Lists items inner)
    (hs : Reached supply convert items inner k calls s k') :
    Advances supply convert items inner k calls (s.pull supply convert k') := by
  by_cases hend : convert.firstFailure items k < items.length ∧ convert.firstFailure items k < calls
  · exact hs.advances_of_ended hend
  · rcases Nat.lt_or_ge calls items.length with hin | hout
    · exact hs.advances_of_item h hend hin
    · exact hs.advances_of_exhausted h hend hout

/-- Many calls give what each of them should. -/
theorem Reached.asked (h : supply.Lists items inner)
    (hs : Reached supply convert items inner k calls s k') (more : Nat) :
    (asked (IndexedStream.pull supply convert) more s k').1 =
        (List.range' calls more).map (given convert items k) ∧
      Reached supply convert items inner k (calls + more)
        (asked (IndexedStream.pull supply convert) more s k').2.1
        (asked (IndexedStream.pull supply convert) more s k').2.2 := by
  induction more generalizing calls s k' with
  | zero => exact ⟨rfl, hs⟩
  | succ more ih =>
    obtain ⟨hg, hn⟩ := hs.advances h
    obtain ⟨hrest, hlast⟩ := ih hn
    constructor
    · rw [List.range'_succ, List.map_cons, ← hg, ← hrest]
      rfl
    · rw [Nat.add_right_comm] at hlast
      exact hlast

/-- An item before the first failure is given with its position. -/
theorem exists_given_of_lt {i : Nat} (hi : i < convert.firstFailure items k) :
    ∃ b, convert.result? items k i = some (.ok b) ∧
      given convert items k i = some (.ok (i, b)) := by
  obtain ⟨b, hb⟩ := convert.exists_result?_of_lt items k hi
  refine ⟨b, hb, ?_⟩
  rw [given, if_pos (Nat.le_of_lt hi), hb]
  rfl

/-- The first failure is given as it is. -/
theorem exists_given_firstFailure (h : convert.firstFailure items k < items.length) :
    ∃ e, convert.result? items k (convert.firstFailure items k) = some (.error e) ∧
      given convert items k (convert.firstFailure items k) = some (.error e) := by
  obtain ⟨e, he⟩ := convert.exists_result?_firstFailure items k h
  refine ⟨e, he, ?_⟩
  rw [given, if_pos (Nat.le_refl _), he]
  rfl

/-- Nothing is given once the items before the first failure and the failure have been. -/
theorem given_eq_none {i : Nat} (hi : convert.firstFailure items k < i ∨ items.length ≤ i) :
    given convert items k i = none := by
  rcases hi with hi | hi
  · exact if_neg (Nat.not_le.mpr hi)
  · simp [given, result?, hi]

private theorem firstFailure_eq_of_given_eq_error {i : Nat} {e : ConversionError}
    (h : given convert items k i = some (.error e)) :
    convert.firstFailure items k = i ∧ i < items.length := by
  by_cases hi : convert.firstFailure items k < i ∨ items.length ≤ i
  · rw [given_eq_none hi] at h
    cases h
  · by_cases hlt : i < convert.firstFailure items k
    · obtain ⟨b, -, hb⟩ := exists_given_of_lt hlt
      rw [hb] at h
      cases h
    · omega

/-- No more answers are to come than items before the first failure and the failure. -/
theorem countP_given_le (start more : Nat) :
    ((List.range' start more).map (given convert items k)).countP Option.isSome ≤
      min (convert.firstFailure items k + 1) items.length - start := by
  induction more generalizing start with
  | zero => exact Nat.zero_le _
  | succ more ih =>
    have hrest := ih (start + 1)
    rw [List.range'_succ, List.map_cons, List.countP_cons]
    by_cases hin : convert.firstFailure items k < start ∨ items.length ≤ start
    · rw [given_eq_none hin]
      simp only [Option.isSome_none, Bool.false_eq_true, if_false]
      omega
    · have : (if (given convert items k start).isSome then 1 else 0) ≤ 1 := by split <;> omega
      omega

/-- The most that a stream says may come is not less than what may come. -/
theorem Reached.le_hint (h : supply.Lists items inner)
    (hs : Reached supply convert items inner k calls s k') {u : Nat}
    (hu : (s.hint supply).2 = some u) :
    min (convert.firstFailure items k + 1) items.length - calls ≤ u := by
  by_cases hend : convert.firstFailure items k < items.length ∧ convert.firstFailure items k < calls
  · omega
  · rw [hint, hs.halted, decide_eq_false hend, if_neg Bool.false_ne_true, hs.inner] at hu
    have hasked : (if convert.firstFailure items k < items.length then
        min calls (convert.firstFailure items k + 1) else calls) = calls := by
      split <;> omega
    rw [hasked] at hu
    have := h.upper calls u hu
    omega

/-- Noting the calls changes nothing else. -/
theorem Reached.eq_of_recorded {s' : IndexedStream σ} {k'' : κ × List α}
    (hs : Reached supply convert items inner k calls s k')
    (hs' : Reached supply convert.recorded items inner (k, []) calls s' k'') :
    s' = s ∧ k'' = (k', items.take (convertedAfter convert items k calls)) := by
  obtain ⟨inner₁, position₁, halted₁⟩ := s
  obtain ⟨inner₂, position₂, halted₂⟩ := s'
  obtain ⟨hi, hp, hh, rfl⟩ := hs
  obtain ⟨hi', hp', hh', rfl⟩ := hs'
  simp only [convertedAfter, firstFailure_recorded] at hi' hp' hh'
  refine ⟨by simp_all [convertedAfter], ?_⟩
  rw [stateAfter_recorded, convertedAfter, firstFailure_recorded]
  rfl

/-- What comes of asking a stream over some items so many times. -/
structure Answers (supply : Supply σ α) (convert : Conversion κ α β) (items : List α) (inner : σ)
    (k : κ) (calls : Nat) (run : List (Pulled β) × IndexedStream σ × κ) : Prop where
  length : run.1.length = calls
  converted : ∀ i < calls, i < convert.firstFailure items k →
    ∃ b, convert.result? items k i = some (.ok b) ∧ run.1[i]? = some (some (.ok (i, b)))
  failed : convert.firstFailure items k < calls → convert.firstFailure items k < items.length →
    ∃ e, convert.result? items k (convert.firstFailure items k) = some (.error e) ∧
      run.1[convert.firstFailure items k]? = some (some (.error e))
  ended : ∀ i < calls, convert.firstFailure items k < i ∨ items.length ≤ i →
    run.1[i]? = some none
  /-- The calls of the conversion, which are noted without any other effect. -/
  called : asked (pull supply convert.recorded) calls { inner } (k, []) =
    (run.1, run.2.1, run.2.2,
      items.take (min calls (min (convert.firstFailure items k + 1) items.length)))
  state : run.2.2 = convert.stateAfter
    (items.take (min calls (min (convert.firstFailure items k + 1) items.length))) k
  halted : run.2.1.halted = true ↔ ∃ e, some (.error e) ∈ run.1
  least : (run.2.1.hint supply).1 = 0
  most : ∀ u, (run.2.1.hint supply).2 = some u → ∀ more,
    (asked (pull supply convert) more run.2.1 run.2.2).1.countP Option.isSome ≤ u
  none_left : run.2.1.halted = true → run.2.1.hint supply = (0, some 0)

/-- Whatever the items are and however they are converted, a stream gives those before the first
failure, then the failure, then nothing. -/
theorem answers_asked (h : supply.Lists items inner) (convert : Conversion κ α β) (k : κ)
    (calls : Nat) :
    Answers supply convert items inner k calls
      (IndexedStream.asked (pull supply convert) calls { inner } k) := by
  obtain ⟨hg, hr⟩ := (reached_start convert k).asked h calls
  rw [Nat.zero_add] at hr
  generalize hrun : asked (pull supply convert) calls { inner } k = run at hg hr
  have hat {i : Nat} (hi : i < calls) : run.1[i]? = some (given convert items k i) := by
    rw [hg, List.getElem?_map, List.getElem?_range' hi]
    simp
  constructor
  case length => rw [hg, List.length_map, List.length_range']
  case converted =>
    intro i hi hlt
    obtain ⟨b, hb, hgiven⟩ := exists_given_of_lt hlt
    exact ⟨b, hb, hgiven ▸ hat hi⟩
  case failed =>
    intro hi hlt
    obtain ⟨e, he, hgiven⟩ := exists_given_firstFailure hlt
    exact ⟨e, he, hgiven ▸ hat hi⟩
  case ended =>
    intro i hi hend
    rw [hat hi, given_eq_none hend]
  case called =>
    obtain ⟨hg', hr'⟩ := (reached_start convert.recorded (k, [])).asked h calls
    rw [Nat.zero_add] at hr'
    obtain ⟨hstream, hstate⟩ := hr.eq_of_recorded hr'
    have hsame : given convert.recorded items (k, []) = given convert items k := by
      funext i
      rw [given, given, firstFailure_recorded, result?_recorded]
    rw [hsame, ← hg] at hg'
    exact Prod.ext hg' (Prod.ext hstream hstate)
  case state => exact hr.state
  case halted =>
    rw [hr.halted, decide_eq_true_iff]
    constructor
    · rintro ⟨hlt, hi⟩
      obtain ⟨e, -, hgiven⟩ := exists_given_firstFailure hlt
      exact ⟨e, List.mem_of_getElem? (hgiven ▸ hat hi)⟩
    · rintro ⟨e, he⟩
      rw [hg, List.mem_map] at he
      obtain ⟨i, hi, he⟩ := he
      rw [List.mem_range'_1] at hi
      have := firstFailure_eq_of_given_eq_error he
      omega
  case least =>
    rw [hint]
    split <;> rfl
  case most =>
    intro u hu more
    rw [(hr.asked h more).1]
    exact Nat.le_trans (countP_given_le calls more) (hr.le_hint h hu)
  case none_left =>
    intro hh
    rw [hint, hh, if_pos rfl]

/-- If the first item fails, its failure is given, and nothing else ever is. -/
theorem asked_of_head_fails {supply : Supply σ α} {items : List α} {inner : σ}
    (h : supply.Lists items inner) {convert : Conversion κ α β} {k : κ} (e : α → ConversionError)
    (hf : ∀ a, items.head? = some a → (convert a k).1 = .error (e a)) (calls : Nat) :
    (asked (pull supply convert) calls { inner } k).1 =
      (List.range calls).map fun i =>
        if i = 0 then items.head?.map fun a => .error (e a) else none := by
  rw [((reached_start convert k).asked h calls).1, ← List.range_eq_range']
  refine List.map_congr_left fun i _ => ?_
  cases items with
  | nil => simp [given, result?]
  | cons a rest =>
    have hfail := hf a rfl
    have hfirst : convert.firstFailure (a :: rest) k = 0 := by
      rw [firstFailure]
      rcases hc : convert a k with ⟨_ | b, k'⟩
      · rfl
      · rw [hc] at hfail
        cases hfail
    rw [given, hfirst]
    cases i with
    | zero => simp [result?, stateAfter, hfail, Except.map]
    | succ i => simp

end Lists

end IndexedStream

end Switchboard
