/-! Maps from texts, kept as pairs in ascending order of their keys, each key once. Texts are
compared character by character. -/

namespace Switchboard

/-- Pairs by ascending key. -/
abbrev SortedMap (α : Type u) := List (String × α)

namespace SortedMap

/-- The value under a key. -/
def get? (key : String) : SortedMap α → Option α
  | [] => none
  | (k, a) :: rest => if k = key then some a else get? key rest

/-- Whether there is a value under a key. -/
def has (key : String) (m : SortedMap α) : Bool :=
  (get? key m).isSome

/-- The map with a value under a key, in place of the one that was there. -/
def insert (key : String) (a : α) : SortedMap α → SortedMap α
  | [] => [(key, a)]
  | (k, b) :: rest =>
    if k = key then (key, a) :: rest
    else if key < k then (key, a) :: (k, b) :: rest
    else (k, b) :: insert key a rest

/-- The map with nothing under a key. -/
def erase (key : String) : SortedMap α → SortedMap α
  | [] => []
  | (k, a) :: rest => if k = key then rest else (k, a) :: erase key rest

/-- The keys in order. -/
def keys (m : SortedMap α) : List String := m.map Prod.fst

/-- The map of a list of pairs. Of two with one key the later stays. -/
def ofList (pairs : List (String × α)) : SortedMap α :=
  pairs.foldl (fun m (k, a) => insert k a m) []

theorem get?_insert (key k : String) (a : α) (m : SortedMap α) :
    get? k (insert key a m) = if k = key then some a else get? k m := by
  induction m with
  | nil => simp [insert, get?, eq_comm]
  | cons p m ih =>
    obtain ⟨l, b⟩ := p
    simp only [insert]
    split
    · subst l
      by_cases h : k = key
      · simp [get?, h]
      · simp [get?, h, Ne.symm h]
    · split
      · by_cases h : k = key
        · simp [get?, h]
        · simp [get?, h, Ne.symm h]
      · simp only [get?, ih]
        split <;> simp_all

theorem get?_insert_self (key : String) (a : α) (m : SortedMap α) :
    get? key (insert key a m) = some a := by
  simp [get?_insert]

end SortedMap

end Switchboard
