import Switchboard.SortedMap

/-! Maps with their keys in ascending order, as all of them are. Two such maps are the same if they
have the same value under every key. -/

namespace Switchboard.SortedMap

variable {α : Type}

/-- Whether the keys come in ascending order, each once. -/
def Ascending (m : SortedMap α) : Prop := (keys m).Pairwise (· < ·)

theorem ascending_nil : Ascending ([] : SortedMap α) := List.Pairwise.nil

theorem ascending_cons {k : String} {a : α} {m : SortedMap α} :
    Ascending ((k, a) :: m) ↔ (∀ l ∈ keys m, k < l) ∧ Ascending m := List.pairwise_cons

theorem Ascending.nodup {m : SortedMap α} (h : Ascending m) : (keys m).Nodup := by
  refine List.Pairwise.imp ?_ h
  rintro k l hlt rfl
  exact String.lt_irrefl k hlt

theorem ascending_append {k : String} {a : α} {m : SortedMap α} :
    Ascending (m ++ [(k, a)]) ↔ Ascending m ∧ ∀ l ∈ keys m, l < k := by
  rw [Ascending, keys, List.map_append, List.pairwise_append]
  simp [Ascending, keys]

theorem get?_eq_none_of_not_mem {key : String} {m : SortedMap α} (h : key ∉ keys m) :
    get? key m = none := by
  induction m with
  | nil => rfl
  | cons p m ih =>
    obtain ⟨k, a⟩ := p
    have hk : k ≠ key := fun he => h (he ▸ List.mem_cons_self)
    rw [get?, if_neg hk]
    exact ih fun hm => h (List.mem_cons_of_mem k hm)

/-- There is a value under the keys of a map. -/
theorem isSome_get?_iff {key : String} {m : SortedMap α} :
    (get? key m).isSome = true ↔ key ∈ keys m := by
  induction m with
  | nil => simp [get?, keys]
  | cons p m ih =>
    obtain ⟨k, a⟩ := p
    by_cases hk : k = key
    · simp [get?, keys, hk]
    · rw [get?, if_neg hk, ih]
      simp [keys, Ne.symm hk]

theorem mem_of_get? {key : String} {a : α} {m : SortedMap α} (h : get? key m = some a) :
    (key, a) ∈ m := by
  induction m with
  | nil => cases h
  | cons p m ih =>
    obtain ⟨k, b⟩ := p
    rw [get?] at h
    by_cases hk : k = key
    · rw [if_pos hk] at h
      cases h
      rw [hk]
      exact List.mem_cons_self
    · rw [if_neg hk] at h
      exact List.mem_cons_of_mem _ (ih h)

theorem mem_insert {key : String} {a : α} {m : SortedMap α} {e : String × α}
    (h : e ∈ insert key a m) : e = (key, a) ∨ e ∈ m := by
  induction m with
  | nil => exact .inl (List.mem_singleton.mp h)
  | cons p m ih =>
    obtain ⟨k, b⟩ := p
    simp only [insert] at h
    split at h
    · rcases List.mem_cons.mp h with h | h
      · exact .inl h
      · exact .inr (List.mem_cons_of_mem _ h)
    · split at h
      · exact List.mem_cons.mp h
      · rcases List.mem_cons.mp h with rfl | h
        · exact .inr List.mem_cons_self
        · exact (ih h).imp_right (List.mem_cons_of_mem _)

private theorem mem_keys_insert {key k : String} {a : α} {m : SortedMap α}
    (h : k ∈ keys (insert key a m)) :
    k = key ∨ k ∈ keys m := by
  obtain ⟨e, he, rfl⟩ := List.mem_map.mp h
  exact (mem_insert he).imp (congrArg Prod.fst) List.mem_map_of_mem

theorem ascending_insert {key : String} {a : α} {m : SortedMap α} (h : Ascending m) :
    Ascending (insert key a m) := by
  induction m with
  | nil => exact ascending_cons.mpr ⟨fun l hl => absurd hl List.not_mem_nil, ascending_nil⟩
  | cons p m ih =>
    obtain ⟨k, b⟩ := p
    obtain ⟨hk, hm⟩ := ascending_cons.mp h
    simp only [insert]
    split
    · rename_i he
      exact ascending_cons.mpr ⟨fun l hl => he ▸ hk l hl, hm⟩
    · rename_i hne
      split
      · rename_i hlt
        refine ascending_cons.mpr ⟨fun l hl => ?_, h⟩
        rcases List.mem_cons.mp hl with rfl | hl
        · exact hlt
        · exact String.lt_trans hlt (hk l hl)
      · rename_i hnlt
        refine ascending_cons.mpr ⟨fun l hl => ?_, ih hm⟩
        rcases mem_keys_insert hl with rfl | hl
        · exact Decidable.byContradiction fun hn =>
            hne (String.le_antisymm (String.not_lt.mp hnlt) (String.not_lt.mp hn))
        · exact hk l hl

theorem insert_of_lt {key : String} {a : α} {m : SortedMap α} (h : ∀ k ∈ keys m, k < key) :
    insert key a m = m ++ [(key, a)] := by
  induction m with
  | nil => rfl
  | cons p m ih =>
    obtain ⟨k, b⟩ := p
    obtain ⟨hk, hm⟩ := List.forall_mem_cons.mp h
    have hne : k ≠ key := fun he => String.lt_irrefl key (he ▸ hk)
    rw [insert, if_neg hne, if_neg (String.lt_asymm hk), ih hm]
    rfl

/-- A new key makes a map longer by one. -/
theorem length_insert {key : String} {a : α} {m : SortedMap α} (h : get? key m = none) :
    (insert key a m).length = m.length + 1 := by
  induction m with
  | nil => rfl
  | cons p m ih =>
    obtain ⟨k, b⟩ := p
    rw [get?] at h
    rw [insert]
    split at h
    · cases h
    · rename_i hne
      rw [if_neg hne]
      split
      · rfl
      · rw [List.length_cons, ih h, List.length_cons]

private theorem mem_keys_erase {key k : String} {m : SortedMap α} (h : k ∈ keys (erase key m)) :
    k ∈ keys m := by
  induction m with
  | nil => exact h
  | cons p m ih =>
    obtain ⟨l, b⟩ := p
    simp only [erase] at h
    split at h
    · exact List.mem_cons_of_mem l h
    · rcases List.mem_cons.mp h with h | h
      · exact h ▸ List.mem_cons_self
      · exact List.mem_cons_of_mem l (ih h)

theorem ascending_erase {key : String} {m : SortedMap α} (h : Ascending m) :
    Ascending (erase key m) := by
  induction m with
  | nil => exact ascending_nil
  | cons p m ih =>
    obtain ⟨k, b⟩ := p
    obtain ⟨hk, hm⟩ := ascending_cons.mp h
    simp only [erase]
    split
    · exact hm
    · exact ascending_cons.mpr ⟨fun l hl => hk l (mem_keys_erase hl), ih hm⟩

/-- What is under another key stays when a key is erased. -/
theorem get?_erase_of_ne {key k : String} (h : k ≠ key) (m : SortedMap α) :
    get? k (erase key m) = get? k m := by
  induction m with
  | nil => rfl
  | cons p m ih =>
    obtain ⟨l, b⟩ := p
    rw [erase]
    by_cases hl : l = key
    · rw [if_pos hl, get?, if_neg fun he => h (he.symm.trans hl)]
    · rw [if_neg hl, get?, get?, ih]

private theorem get?_erase_self {m : SortedMap α} (h : Ascending m) (key : String) :
    get? key (erase key m) = none := by
  induction m with
  | nil => rfl
  | cons p m ih =>
    obtain ⟨l, b⟩ := p
    obtain ⟨hl, hm⟩ := ascending_cons.mp h
    rw [erase]
    by_cases he : l = key
    · subst he
      rw [if_pos rfl]
      exact get?_eq_none_of_not_mem fun hmem => String.lt_irrefl l (hl l hmem)
    · rw [if_neg he, get?, if_neg he, ih hm]

/-- Nothing is left under a key that is erased, and the rest stays. -/
theorem get?_erase {m : SortedMap α} (h : Ascending m) (key k : String) :
    get? k (erase key m) = if k = key then none else get? k m := by
  by_cases hk : k = key
  · rw [if_pos hk, hk, get?_erase_self h]
  · rw [if_neg hk, get?_erase_of_ne hk]

/-- The values under all keys make up a map. -/
theorem ext {m n : SortedMap α} (hm : Ascending m) (hn : Ascending n)
    (h : ∀ k, get? k m = get? k n) : m = n := by
  induction m generalizing n with
  | nil =>
    cases n with
    | nil => rfl
    | cons q n =>
      have := h q.1
      simp [get?] at this
  | cons p m ih =>
    obtain ⟨k, a⟩ := p
    cases n with
    | nil =>
      have := h k
      simp [get?] at this
    | cons q n =>
      obtain ⟨l, b⟩ := q
      obtain ⟨hk, hm'⟩ := ascending_cons.mp hm
      obtain ⟨hl, hn'⟩ := ascending_cons.mp hn
      -- the least key of the one map is that of the other
      have hkl : k = l := by
        refine Decidable.byContradiction fun hne => ?_
        have h₁ := h k
        have h₂ := h l
        rw [get?, if_pos rfl, get?, if_neg (Ne.symm hne)] at h₁
        rw [get?, if_neg hne, get?, if_pos rfl] at h₂
        have hlk := hl k (List.mem_map_of_mem (mem_of_get? h₁.symm))
        exact String.lt_asymm hlk (hk l (List.mem_map_of_mem (mem_of_get? h₂)))
      subst hkl
      have hab := h k
      rw [get?, if_pos rfl, get?, if_pos rfl] at hab
      cases hab
      refine congrArg _ (ih hm' hn' fun j => ?_)
      by_cases hj : k = j
      · subst hj
        rw [get?_eq_none_of_not_mem fun hm => String.lt_irrefl k (hk k hm),
          get?_eq_none_of_not_mem fun hm => String.lt_irrefl k (hl k hm)]
      · have hr := h j
        rw [get?, if_neg hj, get?, if_neg hj] at hr
        exact hr

end Switchboard.SortedMap
