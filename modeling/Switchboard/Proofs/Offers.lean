import Switchboard.Proofs.SortedMap
import Switchboard.Proofs.Tables
import Switchboard.Proofs.Traversal

/-! Tables under offers. Whatever cases are offered, accepted or not, the cases of a table and its
index say the same, and an offer is refused for the first name that stands in its way. -/

namespace Switchboard.DispatchTable

variable {t : DispatchTable} {c : DispatchCase}

/-! ## What is refused -/

/-- Names that can be routed together: they are distinct, and none is routed yet. -/
def Fresh (t : DispatchTable) (names : List String) : Prop :=
  names.Nodup ∧ ∀ name ∈ names, t.groupOf name = none

/-- That a name is the first of some names that is routed already or comes twice. -/
def FirstClash (t : DispatchTable) (names : List String) (name : String) : Prop :=
  ∃ before after, names = before ++ name :: after ∧ t.Fresh before ∧
    (t.contains name = true ∨ name ∈ before)

private theorem fresh_nil : t.Fresh [] := ⟨List.nodup_nil, by simp⟩

private theorem fresh_cons {name : String} {names : List String} :
    t.Fresh (name :: names) ↔ t.groupOf name = none ∧ name ∉ names ∧ t.Fresh names := by
  simp only [Fresh, List.nodup_cons, List.forall_mem_cons]
  tauto

/-- The first item stands where a list is split, or it stands before. -/
theorem exists_split_cons {α : Type} {P : List α → Prop} {a b : α} {rest : List α} :
    (∃ before after, a :: rest = before ++ b :: after ∧ P before) ↔
      (a = b ∧ P []) ∨ ∃ before after, rest = before ++ b :: after ∧ P (a :: before) := by
  constructor
  · rintro ⟨_ | ⟨_, before⟩, after, h, hp⟩
    · exact .inl ⟨(List.cons.inj h).1, hp⟩
    · obtain ⟨rfl, rfl⟩ := List.cons.inj h
      exact .inr ⟨before, after, rfl, hp⟩
  · rintro (⟨rfl, hp⟩ | ⟨before, after, rfl, hp⟩)
    · exact ⟨[], rest, rfl, hp⟩
    · exact ⟨a :: before, after, rfl, hp⟩

private theorem clash?_cons (t : DispatchTable) (group : Nat) (seen : List String) (name : String)
    (rest : List String) :
    t.clash? group seen (name :: rest) =
      if t.contains name = true ∨ name ∈ seen then some (name, (t.groupOf name).getD group)
      else t.clash? group (name :: seen) rest := by
  rw [clash?, contains]
  cases t.groupOf name <;> simp

private theorem clash?_eq_some_iff (t : DispatchTable) (group : Nat) (seen types : List String)
    (name : String) (first : Nat) :
    t.clash? group seen types = some (name, first) ↔
      first = (t.groupOf name).getD group ∧
        ∃ before after, types = before ++ name :: after ∧ t.Fresh before ∧
          (∀ n ∈ before, n ∉ seen) ∧ (t.contains name = true ∨ name ∈ before ∨ name ∈ seen) := by
  induction types generalizing seen with
  | nil => simp [clash?]
  | cons n rest ih =>
    rw [clash?_cons, exists_split_cons]
    by_cases hc : t.contains n = true ∨ n ∈ seen
    · -- nothing that clashes stands before the first clash
      have hn (before : List String) : t.Fresh (n :: before) → ¬ ∀ m ∈ n :: before, m ∉ seen := by
        rw [fresh_cons]
        rintro ⟨hg, -, -⟩ hs
        rcases hc with hc | hc
        · simp [contains, hg] at hc
        · exact hs n List.mem_cons_self hc
      rw [if_pos hc, Option.some.injEq, Prod.mk.injEq]
      constructor
      · rintro ⟨rfl, rfl⟩
        exact ⟨rfl, .inl ⟨rfl, fresh_nil, by simp, hc.imp_right .inr⟩⟩
      · rintro ⟨rfl, ⟨rfl, -⟩ | ⟨before, _, -, hf, hs, -⟩⟩
        · exact ⟨rfl, rfl⟩
        · exact absurd hs (hn before hf)
    · have hg : t.groupOf n = none := by simpa [contains] using fun h => hc (.inl h)
      rw [if_neg hc, ih]
      refine and_congr_right fun _ => ⟨?_, ?_⟩
      · rintro ⟨before, after, rfl, hf, hs, h⟩
        simp only [List.mem_cons, not_or] at hs h
        refine .inr ⟨before, after, rfl, fresh_cons.mpr ⟨hg, fun hm => (hs n hm).1 rfl, hf⟩, ?_, ?_⟩
        · exact List.forall_mem_cons.mpr ⟨fun hm => hc (.inr hm), fun m hm => (hs m hm).2⟩
        · rw [List.mem_cons]
          tauto
      · rintro (⟨rfl, -, -, h⟩ | ⟨before, after, rfl, hf, hs, h⟩)
        · simp only [List.not_mem_nil, false_or] at h
          exact absurd h hc
        · obtain ⟨-, hn, hf⟩ := fresh_cons.mp hf
          obtain ⟨-, hs⟩ := List.forall_mem_cons.mp hs
          refine ⟨before, after, rfl, hf, fun m hm => ?_, ?_⟩
          · rw [List.mem_cons, not_or]
            exact ⟨fun he => hn (he ▸ hm), hs m hm⟩
          · rw [List.mem_cons] at h ⊢
            tauto

/-- Some name is the first to clash unless all names are fresh. -/
theorem exists_firstClash_iff {names : List String} :
    (∃ name, t.FirstClash names name) ↔ ¬ t.Fresh names := by
  have hn : t.clash? 0 [] names = none ↔ t.Fresh names := by
    rw [clash?_eq_none_iff, Fresh]
    simp
  rw [← hn, ← ne_eq, Option.ne_none_iff_exists', Prod.exists]
  simp [clash?_eq_some_iff, FirstClash]

private theorem foldl_enter (group : Nat) (names : List String) (t : DispatchTable) :
    names.foldl (enter group) t =
      ⟨t.cases, names.foldl (fun index name => SortedMap.insert name group index) t.index⟩ := by
  induction names generalizing t with
  | nil => rfl
  | cons name rest ih => exact ih (t.enter group name)

private theorem offer_of_nil (h : c.types = []) : t.offer c = (some (.emptyCase c.group), t) := by
  rw [offer, h]
  rfl

private theorem offer_of_firstClash {name : String} (h : t.FirstClash c.types name) :
    t.offer c = (some (.duplicateType name ((t.groupOf name).getD c.group) c.group), t) := by
  obtain ⟨before, after, ht, hf, hc⟩ := h
  have hclash : t.clash? c.group [] c.types = some (name, (t.groupOf name).getD c.group) := by
    rw [clash?_eq_some_iff]
    exact ⟨rfl, before, after, ht, hf, by simp, hc.imp_right .inl⟩
  rw [offer, if_neg (by simp [ht]), hclash]

private theorem offer_of_fresh (hne : c.types ≠ []) (hf : t.Fresh c.types) :
    t.offer c = (none, t.pushed c.group c.types) := by
  have hclash : t.clash? c.group [] c.types = none := by
    rw [clash?_eq_none_iff]
    exact ⟨hf.1, fun name hm => ⟨hf.2 name hm, List.not_mem_nil⟩⟩
  rw [offer, if_neg (by simp [hne]), hclash]
  simp only [foldl_enter]
  rfl

/-- What can be said of an offer: which one is refused and why, that a refusal changes nothing, and
that an accepted case comes after those before it. -/
structure Judges (t : DispatchTable) (c : DispatchCase) : Prop where
  empty : ∀ g, (t.offer c).1 = some (.emptyCase g) ↔ c.types = [] ∧ g = c.group
  clashing : (∃ name first second, (t.offer c).1 = some (.duplicateType name first second)) ↔
    c.types ≠ [] ∧ ((∃ name ∈ c.types, t.contains name = true) ∨ ¬ c.types.Nodup)
  duplicate : ∀ name first second, (t.offer c).1 = some (.duplicateType name first second) ↔
    t.FirstClash c.types name ∧ first = (t.groupOf name).getD c.group ∧ second = c.group
  accepted : (t.offer c).1 = none ↔ c.types ≠ [] ∧ t.Fresh c.types
  refused : (t.offer c).1 ≠ none → (t.offer c).2 = t
  added : (t.offer c).1 = none → (t.offer c).2.cases = t.cases ++ [c]

private theorem not_fresh_iff {names : List String} :
    ¬ t.Fresh names ↔ (∃ name ∈ names, t.contains name = true) ∨ ¬ names.Nodup := by
  simp only [Fresh, not_and_or, not_forall, contains, Option.isSome_iff_ne_none, exists_prop]
  exact or_comm

private theorem FirstClash.unique {names : List String} {name other : String}
    (h : t.FirstClash names name) (h' : t.FirstClash names other) : name = other := by
  have hc := offer_of_firstClash (c := ⟨0, names⟩) h
  rw [offer_of_firstClash (c := ⟨0, names⟩) h'] at hc
  injection hc with ho
  injection ho with ho
  injection ho with ho
  exact ho.symm

private theorem judges (t : DispatchTable) (c : DispatchCase) : t.Judges c := by
  by_cases hne : c.types = []
  · have hn (name : String) : ¬ t.FirstClash c.types name := by
      rintro ⟨before, after, ht, -⟩
      simp [hne] at ht
    have ho := offer_of_nil (t := t) hne
    constructor
    case empty => simp [ho, hne, eq_comm]
    case clashing => simp [ho, hne]
    case duplicate => simp [ho, hn]
    case accepted => simp [ho, hne]
    case refused => simp [ho]
    case added => simp [ho]
  · by_cases hf : t.Fresh c.types
    · have hn (name : String) : ¬ t.FirstClash c.types name := fun h =>
        exists_firstClash_iff.mp ⟨name, h⟩ hf
      have ho := offer_of_fresh hne hf
      constructor
      case empty => simp [ho, hne]
      case clashing => simp [ho, ← not_fresh_iff, hf]
      case duplicate => simp [ho, hn]
      case accepted => simp [ho, hne, hf]
      case refused => simp [ho]
      case added => simp [ho]
    · obtain ⟨name, hc⟩ := exists_firstClash_iff.mpr hf
      have hn (other : String) : t.FirstClash c.types other ↔ other = name :=
        ⟨fun h => h.unique hc, fun h => h ▸ hc⟩
      have ho := offer_of_firstClash hc
      constructor
      case empty => simp [ho, hne]
      case clashing => simp [ho, ← not_fresh_iff, hf, hne]
      case duplicate =>
        intro other first second
        rw [ho, hn]
        grind
      case accepted => simp [ho, hf]
      case refused => simp [ho]
      case added => simp [ho]

/-! ## What is kept -/

/-- That the cases and the index of a table say the same, with no name twice and no case empty. -/
structure Exact (t : DispatchTable) : Prop where
  nonempty : ∀ c ∈ t.cases, c.types ≠ []
  distinct : t.keys.Nodup
  routed : ∀ name g, t.groupOf name = some g ↔ ∃ c ∈ t.cases, c.group = g ∧ name ∈ c.types
  ordered : SortedMap.Ascending t.index

theorem exact_empty : Exact {} where
  nonempty := by simp
  distinct := List.nodup_nil
  routed := by simp [groupOf, SortedMap.get?]
  ordered := SortedMap.ascending_nil

namespace Exact

private theorem contains_iff (h : t.Exact) (name : String) :
    t.contains name = true ↔ name ∈ t.keys := by
  rw [contains, Option.isSome_iff_exists, keys, List.mem_flatMap]
  constructor
  · rintro ⟨g, hg⟩
    obtain ⟨c, hc, -, hn⟩ := (h.routed name g).mp hg
    exact ⟨c, hc, hn⟩
  · rintro ⟨c, hc, hn⟩
    exact ⟨c.group, (h.routed name c.group).mpr ⟨c, hc, rfl, hn⟩⟩

/-- The index has as many names as the cases list. -/
theorem size_eq (h : t.Exact) : t.size = t.keys.length := by
  have hp : (SortedMap.keys t.index).Perm t.keys := by
    refine (List.perm_ext_iff_of_nodup h.ordered.nodup h.distinct).mpr fun name => ?_
    rw [← h.contains_iff, contains, groupOf, SortedMap.isSome_get?_iff]
  have hl := hp.length_eq
  rwa [SortedMap.keys, List.length_map] at hl

/-- The cases fix the whole table. -/
theorem ext {u : DispatchTable} (ht : t.Exact) (hu : u.Exact) (hc : t.cases = u.cases) : t = u := by
  have hi : t.index = u.index := by
    refine SortedMap.ext ht.ordered hu.ordered fun name => Option.ext fun g => ?_
    exact (ht.routed name g).trans (hc ▸ (hu.routed name g).symm)
  cases t
  cases u
  cases hc
  cases hi
  rfl

private theorem pushed (h : t.Exact) {group : Nat} {types : List String} (hne : types ≠ [])
    (hf : t.Fresh types) : (t.pushed group types).Exact where
  nonempty := by
    intro c hc
    rcases List.mem_append.mp hc with hc | hc
    · exact h.nonempty c hc
    · rwa [List.mem_singleton.mp hc]
  distinct := by
    have hk : (t.pushed group types).keys = t.keys ++ types := by simp [keys]
    rw [hk, List.nodup_append]
    refine ⟨h.distinct, hf.1, ?_⟩
    rintro name hn other ho rfl
    have hc := (h.contains_iff name).mpr hn
    rw [contains, hf.2 name ho] at hc
    cases hc
  routed := by
    intro name g
    rw [groupOf_pushed]
    simp only [cases_pushed, List.mem_append, List.mem_singleton]
    by_cases hn : name ∈ types
    · -- the new case is the only one with the name
      rw [if_pos hn, Option.some.injEq]
      constructor
      · rintro rfl
        exact ⟨_, .inr rfl, rfl, hn⟩
      · rintro ⟨c, hc | rfl, rfl, hm⟩
        · have hg := (h.routed name c.group).mpr ⟨c, hc, rfl, hm⟩
          rw [hf.2 name hn] at hg
          cases hg
        · rfl
    · rw [if_neg hn, h.routed]
      constructor
      · rintro ⟨c, hc, hg, hm⟩
        exact ⟨c, .inl hc, hg, hm⟩
      · rintro ⟨c, hc | rfl, hg, hm⟩
        · exact ⟨c, hc, hg, hm⟩
        · exact absurd hm hn
  ordered := by
    refine List.foldlRecOn types _ h.ordered fun index hi name _ => ?_
    exact SortedMap.ascending_insert hi

/-- An offer, accepted or not, leaves a table exact. -/
theorem offer (h : t.Exact) (c : DispatchCase) : (t.offer c).2.Exact := by
  by_cases ha : (t.offer c).1 = none
  · obtain ⟨hne, hf⟩ := (judges t c).accepted.mp ha
    rw [offer_of_fresh hne hf]
    exact h.pushed hne hf
  · rwa [(judges t c).refused ha]

private theorem offerAll (h : t.Exact) (cases : List DispatchCase) :
    (offerAll cases t).2.Exact := by
  induction cases generalizing t with
  | nil => exact h
  | cons c rest ih => exact ih (h.offer c)

end Exact

/-! ## Cases in order -/

/-- Pushing a case that is not refused is what the offer comes to. -/
theorem push_eq (t : DispatchTable) (c : DispatchCase) :
    t.push c.group c.types = match t.offer c with
      | (none, u) => .ok u
      | (some e, _) => .error e := by
  unfold push offer
  split
  · rfl
  · cases t.clash? c.group [] c.types with
    | some clash => rfl
    | none => simp only [foldl_enter]

private theorem pushAll_eq_ok_iff (cases : List DispatchCase) (t u : DispatchTable) :
    cases.foldlM (fun t c => t.push c.group c.types) t = .ok u ↔
      (∀ a ∈ (offerAll cases t).1, a = none) ∧ (offerAll cases t).2 = u := by
  induction cases generalizing t with
  | nil => simp [offerAll, Traversal.pure_eq_ok_iff]
  | cons c rest ih =>
    rw [List.foldlM_cons, push_eq]
    simp only [offerAll, List.forall_mem_cons]
    rcases t.offer c with ⟨_ | e, u⟩
    · rw [eq_self, true_and, ← ih]
      rfl
    · simp [bind, Except.bind]

private theorem pushAll_eq_error_iff (cases : List DispatchCase) (t : DispatchTable)
    (e : TableError) :
    cases.foldlM (fun t c => t.push c.group c.types) t = .error e ↔
      ∃ c before after, cases = before ++ c :: after ∧
        (∀ a ∈ (offerAll before t).1, a = none) ∧ ((offerAll before t).2.offer c).1 = some e := by
  induction cases generalizing t with
  | nil => simp [pure, Except.pure]
  | cons first rest ih =>
    rw [List.foldlM_cons, push_eq]
    simp only [exists_split_cons, offerAll, List.forall_mem_cons]
    rcases ho : t.offer first with ⟨_ | d, u⟩
    · -- the first case is accepted, so the refusal comes later
      refine (ih u).trans (exists_congr fun c => ?_)
      constructor
      · rintro ⟨before, after, h, ha, hr⟩
        exact .inr ⟨before, after, h, ⟨rfl, ha⟩, hr⟩
      · rintro (⟨rfl, -, hr⟩ | ⟨before, after, h, ⟨-, ha⟩, hr⟩)
        · simp [ho] at hr
        · exact ⟨before, after, h, ha, hr⟩
    · constructor
      · rintro ⟨⟩
        exact ⟨first, .inl ⟨rfl, nofun, by rw [ho]⟩⟩
      · rintro ⟨c, ⟨rfl, -, hr⟩ | ⟨_, _, _, ⟨ha, -⟩, -⟩⟩
        · rw [ho] at hr
          cases hr
          rfl
        · cases ha

/-- Whatever cases are offered to an empty table in whatever order, the table stays exact. What comes
of every further offer is said of it. Making a table of the same cases goes the same way as far as
the first refusal. Two such tables with equal cases are the same table. -/
theorem offers_exact (cases : List DispatchCase) :
    let t := (offerAll cases {}).2
    t.Exact ∧ t.size = t.keys.length ∧
      (∀ name, t.contains name = true ↔ name ∈ t.keys) ∧ (∀ c, t.Judges c) ∧
      (∀ u, ofCases cases = .ok u ↔ (∀ a ∈ (offerAll cases {}).1, a = none) ∧ t = u) ∧
      (∀ e, ofCases cases = .error e ↔ ∃ c before after, cases = before ++ c :: after ∧
        (∀ a ∈ (offerAll before {}).1, a = none) ∧
          ((offerAll before {}).2.offer c).1 = some e) ∧
      ∀ others, let u := (offerAll others {}).2
        (DispatchTables.mk t u).isConsistent = true →
          t = u ∧ ∀ name, t.groupOf name = u.groupOf name := by
  have ht := exact_empty.offerAll cases
  refine ⟨ht, ht.size_eq, ht.contains_iff, judges _, pushAll_eq_ok_iff cases {},
    pushAll_eq_error_iff cases {}, fun others hc => ?_⟩
  have he := ht.ext (exact_empty.offerAll others) (of_decide_eq_true hc)
  exact ⟨he, fun name => congrArg (groupOf · name) he⟩

/-- Cases of which the second has no names, the third a name that is routed already and the fourth a
name twice. -/
def contested : List DispatchCase :=
  [⟨0, ["X", "Y"]⟩, ⟨1, []⟩, ⟨1, ["Z", "X"]⟩, ⟨2, ["W", "W"]⟩, ⟨0, ["Z"]⟩]

theorem offers_exact_contested :
    (offerAll contested {}).1 = [none, some (.emptyCase 1), some (.duplicateType "X" 0 1),
      some (.duplicateType "W" 2 2), none] ∧
    (offerAll contested {}).2.Exact ∧ ofCases contested = .error (.emptyCase 1) ∧
    ∀ name, (offerAll contested {}).2.groupOf name =
      (offerAll [⟨0, ["X", "Y"]⟩, ⟨0, ["Z"]⟩] {}).2.groupOf name := by
  obtain ⟨ht, -, -, -, -, he, hc⟩ := offers_exact contested
  refine ⟨by decide +kernel, ht, (he _).mpr ?_, (hc _ (by decide +kernel)).2⟩
  exact ⟨⟨1, []⟩, [⟨0, ["X", "Y"]⟩], _, rfl, by decide +kernel, by decide +kernel⟩

end Switchboard.DispatchTable
