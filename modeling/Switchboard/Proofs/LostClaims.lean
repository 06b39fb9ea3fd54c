import Switchboard.Generation
import Switchboard.Proofs.Planning

/-! Lost claims. A claim of a type that was claimed before decides nothing. Without it, and whatever
is known of types that nobody claims, the same types are owned, asked for, routed and converted. -/

namespace Switchboard

/-- The items of a list but for those at marked places. -/
def unmarked {α : Type} (marked : Nat → Bool) : List α → List α
  | [] => []
  | a :: rest =>
    if marked 0 then unmarked (fun j => marked (j + 1)) rest
    else a :: unmarked (fun j => marked (j + 1)) rest

namespace Group

/-- A group without its claims at marked places. -/
def without (g : Group) (marked : Nat → Bool) : Group :=
  { g with claims := unmarked marked g.claims }

/-- Groups without their claims at marked places. A place is the index of a group and that of one of
its claims. -/
def allWithout (marked : Nat → Nat → Bool) : List Group → List Group
  | [] => []
  | g :: rest => g.without (marked 0) :: allWithout (fun i => marked (i + 1)) rest

private theorem getElem?_allWithout (marked : Nat → Nat → Bool) (groups : List Group) (i : Nat) :
    (allWithout marked groups)[i]? = (groups[i]?).map fun g => g.without (marked i) := by
  induction groups generalizing marked i with
  | nil => rfl
  | cons g rest ih =>
    cases i with
    | zero => rfl
    | succ i => exact ih _ i

end Group

/-- The claim at a place. -/
def claimAt? (groups : List Group) (i j : Nat) : Option SchemaPath :=
  (groups[i]?).bind fun g => g.claims[j]?

/-- Whether one place is before another: in an earlier group, or earlier in the same. -/
def IsBefore (i j i' j' : Nat) : Prop := i < i' ∨ i = i' ∧ j < j'

/-- Whether the claim at a place is lost, because the same type is claimed before. -/
def IsLost (groups : List Group) (i j : Nat) : Prop :=
  ∃ p, claimAt? groups i j = some p ∧
    ∃ i' j', IsBefore i' j' i j ∧ claimAt? groups i' j' = some p

namespace Ownership

/-! One group -/

/-- Whether each marked claim of a group is of a type that has an owner or is claimed before. -/
def Spent (owners : SortedMap Nat) (marked : Nat → Bool) (ps : List SchemaPath) : Prop :=
  ∀ j p, marked j = true → ps[j]? = some p →
    (SortedMap.get? p.text owners).isSome ∨ ∃ k < j, ps[k]? = some p

/-- Once the first claim has an owner, it need not be remembered. -/
theorem Spent.tail {owners owners' : SortedMap Nat} {marked : Nat → Bool} {p : SchemaPath}
    {rest : List SchemaPath} (h : Spent owners marked (p :: rest))
    (hp : (SortedMap.get? p.text owners').isSome)
    (hm : ∀ name, (SortedMap.get? name owners).isSome → (SortedMap.get? name owners').isSome) :
    Spent owners' (fun j => marked (j + 1)) rest := by
  intro j q hj hq
  rcases h (j + 1) q hj hq with ho | ⟨k, hk, hkq⟩
  · exact .inl (hm q.text ho)
  · cases k with
    | zero =>
      rw [List.getElem?_cons_zero, Option.some.injEq] at hkq
      exact .inl (hkq ▸ hp)
    | succ k => exact .inr ⟨k, Nat.lt_of_succ_lt_succ hk, hkq⟩

/-- The owners and what is kept do not depend on spent claims. -/
theorem claim_unmarked (group : Nat) {owners : SortedMap Nat} {marked : Nat → Bool}
    {ps : List SchemaPath} (h : Spent owners marked ps) :
    (claim group owners (unmarked marked ps)).1 = (claim group owners ps).1 ∧
      (claim group owners (unmarked marked ps)).2.1 = (claim group owners ps).2.1 := by
  induction ps generalizing owners marked with
  | nil => exact ⟨rfl, rfl⟩
  | cons p rest ih =>
    cases ho : SortedMap.get? p.text owners with
    | some owner =>
      have hs : (SortedMap.get? p.text owners).isSome := by rw [ho]; rfl
      obtain ⟨h1, h2⟩ := ih (h.tail hs fun _ => id)
      cases hm : marked 0 <;> simp [unmarked, hm, claim, ho, h1, h2]
    | none =>
      -- a claim of a type without an owner is the first of its type, so it is not marked
      have hm : marked 0 = false := by
        refine eq_false_of_ne_true fun hm => ?_
        rcases h 0 p hm rfl with hs | ⟨k, hk, _⟩
        · simp [ho] at hs
        · exact absurd hk (Nat.not_lt_zero k)
      have ht : Spent (SortedMap.insert p.text group owners) (fun j => marked (j + 1)) rest := by
        refine h.tail (by rw [SortedMap.get?_insert_self]; rfl) fun name hs => ?_
        rw [SortedMap.get?_insert]
        split
        · rfl
        · exact hs
      obtain ⟨h1, h2⟩ := ih ht
      simp [unmarked, hm, claim, ho, h1, h2]

/-! Groups in order -/

/-- Whether each marked claim of some groups is of a type that has an owner or is claimed before. -/
def AllSpent (owners : SortedMap Nat) (marked : Nat → Nat → Bool) (groups : List Group) : Prop :=
  ∀ i j p, marked i j = true → claimAt? groups i j = some p →
    (SortedMap.get? p.text owners).isSome ∨
      ∃ i' j', IsBefore i' j' i j ∧ claimAt? groups i' j' = some p

private theorem AllSpent.head {owners : SortedMap Nat} {marked : Nat → Nat → Bool} {g : Group}
    {rest : List Group} (h : AllSpent owners marked (g :: rest)) :
    Spent owners (marked 0) g.claims := by
  intro j p hj hp
  rcases h 0 j p hj hp with ho | ⟨i', j', hb, hp'⟩
  · exact .inl ho
  · obtain hi | ⟨rfl, hlt⟩ := hb
    · exact absurd hi (Nat.not_lt_zero i')
    · exact .inr ⟨j', hlt, hp'⟩

private theorem AllSpent.tail {index : Nat} {owners : SortedMap Nat} {marked : Nat → Nat → Bool}
    {g : Group} {rest : List Group} (h : AllSpent owners marked (g :: rest)) :
    AllSpent (claim index owners g.claims).1 (fun i => marked (i + 1)) rest := by
  intro i j p hj hp
  rw [get?_claim, Option.isSome_or]
  rcases h (i + 1) j p hj hp with ho | ⟨i', j', hb, hp'⟩
  · exact .inl (by simp [ho])
  · cases i' with
    | zero =>
      have hc : p ∈ g.claims := List.mem_of_getElem? hp'
      exact .inl (by simp [hc])
    | succ i' =>
      refine .inr ⟨i', j', ?_, hp'⟩
      obtain hi | ⟨hi, hlt⟩ := hb
      · exact .inl (Nat.lt_of_succ_lt_succ hi)
      · exact .inr ⟨Nat.succ.inj hi, hlt⟩

private theorem owned_resolveFrom_allWithout (index : Nat) {owners : SortedMap Nat}
    {marked : Nat → Nat → Bool} {groups : List Group} (h : AllSpent owners marked groups) :
    (resolveFrom index owners (Group.allWithout marked groups)).owned =
      (resolveFrom index owners groups).owned := by
  induction groups generalizing index owners marked with
  | nil => rfl
  | cons g rest ih =>
    obtain ⟨h1, h2⟩ := claim_unmarked index h.head
    simp only [Group.allWithout, Group.without, resolveFrom, h1, h2, ih (index + 1) h.tail]

variable {groups : List Group} {marked : Nat → Nat → Bool}

/-- What is owned does not depend on lost claims. -/
theorem owned_resolve_allWithout (h : ∀ i j, marked i j = true → IsLost groups i j) :
    (resolve (Group.allWithout marked groups)).owned = (resolve groups).owned := by
  apply owned_resolveFrom_allWithout 0
  intro i j p hm hp
  obtain ⟨q, hq, hb⟩ := h i j hm
  rw [hp] at hq
  exact .inr (Option.some.inj hq ▸ hb)

end Ownership

open Ownership

/-! What is made from who owns what -/

private theorem DispatchTables.pushGroups_congr {o o' : Ownership} (h : o'.owned = o.owned)
    (tables : DispatchTables) (todo : List Nat) :
    pushGroups o' tables todo = pushGroups o tables todo := by
  have ho (g : Nat) : o'.ownedBy g = o.ownedBy g := by rw [ownedBy, ownedBy, h]
  induction todo generalizing tables with
  | nil => rfl
  | cons g rest ih => simp only [pushGroups, ho, ih]

private theorem DispatchTables.build_congr {o o' : Ownership} (h : o'.owned = o.owned) :
    build o' = build o := by
  rw [build, build, groupCount, groupCount, h, pushGroups_congr h]

/-- The file of a group says only what is answered for the types that it owns. -/
theorem ArityFilter.fileOf_congr {ask ask' : Introspector} (index : Nat) (g : Group)
    {owned : List SchemaPath} (marked : Nat → Bool) (h : ∀ p ∈ owned, ask' p = ask p) :
    fileOf ask' index (g.without marked) owned = fileOf ask index g owned := by
  have h' : ∀ p ∈ owned.eraseDups, ask' p = ask p := fun p hp => h p (List.mem_eraseDups.mp hp)
  have hm : mappedOf ask' owned.eraseDups = mappedOf ask owned.eraseDups :=
    List.filterMap_congr fun p hp => by rw [h' p hp]
  have hl : fieldlessOf ask' owned.eraseDups = fieldlessOf ask owned.eraseDups :=
    List.filter_congr fun p hp => by rw [h' p hp]
  rw [fileOf, fileOf, hm, hl]
  rfl

namespace Plan

variable {groups : List Group} {marked : Nat → Nat → Bool} {ask ask' : Introspector}

private theorem claimedTypes_allWithout (h : ∀ i j, marked i j = true → IsLost groups i j) :
    claimedTypes (Group.allWithout marked groups) = claimedTypes groups := by
  rw [claimedTypes, claimedTypes, ← flatten_owned_resolve, ← flatten_owned_resolve,
    owned_resolve_allWithout h]

private theorem filesOf_allWithout (h : ∀ i j, marked i j = true → IsLost groups i j)
    (ha : ∀ p ∈ claimedTypes groups, ask' p = ask p) :
    filesOf (Group.allWithout marked groups) ask' = filesOf groups ask := by
  apply List.ext_getElem?
  intro i
  rw [getElem?_filesOf, getElem?_filesOf, Group.getElem?_allWithout, Option.map_map]
  apply Option.map_congr
  intro g _
  have ho : (resolve (Group.allWithout marked groups)).ownedBy i = (resolve groups).ownedBy i := by
    rw [ownedBy, ownedBy, owned_resolve_allWithout h]
  rw [Function.comp_apply, ho]
  apply ArityFilter.fileOf_congr
  intro p hp
  exact ha p ((mem_claimedTypes groups p).mpr ⟨i, (mem_ownedBy_resolve groups i p).mp hp⟩)

/-- What two plans have in common from which the same files are made. -/
structure Alike (p q : Plan) : Prop where
  tables : q.tables = p.tables
  files : q.files = p.files
  accessors : q.groups.mapM Emission.accessor = p.groups.mapM Emission.accessor

private theorem mapM_accessor_allWithout (marked : Nat → Nat → Bool) (groups : List Group) :
    (Group.allWithout marked groups).mapM Emission.accessor = groups.mapM Emission.accessor := by
  induction groups generalizing marked with
  | nil => rfl
  | cons g rest ih =>
    rw [Group.allWithout, List.mapM_cons, List.mapM_cons, ih]
    rfl

variable {m m' : Model} {c : Config}

/-- Planning fails with one error for both models, or there are plans of both that are alike. -/
theorem make_allWithout (level : ConflictLevel) (hg : m'.groups = Group.allWithout marked m.groups)
    (h : ∀ i j, marked i j = true → IsLost m.groups i j)
    (ha : ∀ p ∈ claimedTypes m.groups, ask' p = ask p) (hv : m.isValid = true)
    (hv' : m'.isValid = true) :
    (∃ e, (make m ask c).2 = .error e ∧ (make m' ask' { c with conflicts := level }).2 = .error e) ∨
      ∃ p p', (make m ask c).2 = .ok p ∧ (make m' ask' { c with conflicts := level }).2 = .ok p' ∧
        Alike p p' := by
  change (∃ e, (planning m ask c).outcome = .error e ∧ (planning m' ask' _).outcome = .error e) ∨
    ∃ p p', (planning m ask c).outcome = .ok p ∧ (planning m' ask' _).outcome = .ok p' ∧ Alike p p'
  have hc : claimedTypes m'.groups = claimedTypes m.groups := by
    rw [hg, claimedTypes_allWithout h]
  have hfault : ({ c with conflicts := level } : Config).fault? = c.fault? := rfl
  cases hf : c.fault? with
  | some fault =>
    exact .inl ⟨.setting fault, by rw [planning_of_fault hf],
      by rw [planning_of_fault (hfault.trans hf)]⟩
  | none =>
    rw [planning_of_valid hf hv, planning_of_valid (hfault.trans hf) hv']
    rcases forall_ok_or_first_error ask (claimedTypes m.groups) with
      hok | ⟨before, p, after, e, hs, hb, he⟩
    · have hok' : ∀ p ∈ claimedTypes m'.groups, ∃ k, ask' p = .ok k := by
        intro p hp
        rw [hc] at hp
        rw [ha p hp]
        exact hok p hp
      obtain ⟨_, tables, ht, ho⟩ := ofValid_of_ok c.conflicts hok
      obtain ⟨_, tables', ht', ho'⟩ := ofValid_of_ok level hok'
      refine .inr ⟨_, _, ho, ho', ⟨?_, ?_, ?_⟩⟩
      · rw [hg, DispatchTables.build_congr (owned_resolve_allWithout h), ht] at ht'
        exact (Except.ok.inj ht').symm
      · rw [hg]
        exact filesOf_allWithout h ha
      · rw [hg]
        exact mapM_accessor_allWithout marked m.groups
    · have hp : p ∈ claimedTypes m.groups := by simp [hs]
      have hb' : ∀ q ∈ before, ∃ k, ask' q = .ok k := by
        intro q hq
        rw [ha q (by simp [hs, hq])]
        exact hb q hq
      exact .inl ⟨.introspection e, (ofValid_of_error c.conflicts hs hb he).2,
        (ofValid_of_error level (hc.trans hs) hb' ((ha p hp).trans he)).2⟩

end Plan

namespace Generation

variable {emit : Emission.Emitter} {p p' : Plan} {c : Config}

private theorem ofPlan_of_alike (level : ConflictLevel) (h : p.Alike p') :
    ofPlan emit p' { c with conflicts := level } = ofPlan emit p c := by
  simp only [ofPlan, Emission.dispatcher, h.files, h.tables, h.accessors]

variable {m m' : Model} {ask ask' : Introspector} {marked : Nat → Nat → Bool}

/-- Lost claims, the level at which they are logged and what is known of types that nobody claims
decide nothing. Any lost claims may be deleted: planning and generation end with the same errors as
before, or with the same tables, the same converter files and the same files. -/
theorem run_without_lost (emit : Emission.Emitter) (c : Config) (level : ConflictLevel)
    (hg : m'.groups = Group.allWithout marked m.groups)
    (hl : ∀ i j, marked i j = true → IsLost m.groups i j)
    (ha : ∀ g ∈ m.groups, ∀ p ∈ g.claims, ask' p = ask p)
    (hv : m.isValid = true) (hv' : m'.isValid = true) :
    let c' := { c with conflicts := level }
    run emit m' ask' c' = run emit m ask c ∧
    (∀ e, (Plan.make m' ask' c').2 = .error e ↔ (Plan.make m ask c).2 = .error e) ∧
    ∀ p, (Plan.make m ask c).2 = .ok p →
      ∃ p', (Plan.make m' ask' c').2 = .ok p' ∧ p'.tables = p.tables ∧ p'.files = p.files := by
  have ha' : ∀ p ∈ Plan.claimedTypes m.groups, ask' p = ask p := by
    intro p hp
    obtain ⟨g, hgm, hpg⟩ := List.mem_flatMap.mp (List.mem_eraseDups.mp hp)
    exact ha g hgm p hpg
  rcases Plan.make_allWithout (c := c) level hg hl ha' hv hv' with
    ⟨e, he, he'⟩ | ⟨p, p', hp, hp', halike⟩
  · dsimp only
    refine ⟨?_, ?_, ?_⟩
    · simp only [run, he, he']
    · simp [he, he']
    · simp [he]
  · dsimp only
    refine ⟨?_, ?_, ?_⟩
    · simp only [run, hp, hp', ofPlan_of_alike level halike]
    · simp [hp, hp']
    · intro q hq
      rw [hp] at hq
      exact ⟨p', hp', Except.ok.inj hq ▸ halike.tables, Except.ok.inj hq ▸ halike.files⟩

/-- A model in which one group claims a type twice and another claims a type of the first. -/
def crowded : Model where
  groups := [⟨"a", none, [⟨"X"⟩, ⟨"Y"⟩, ⟨"X"⟩]⟩, ⟨"b", none, [⟨"Y"⟩, ⟨"Z"⟩]⟩]
  types := [("X", .named ["x"]), ("Y", .unit), ("Z", .tuple 1)]

/-- The same groups without one of the lost claims. Another type is known beforehand as well. -/
def thinned : Model where
  groups := [⟨"a", none, [⟨"X"⟩, ⟨"Y"⟩, ⟨"X"⟩]⟩, ⟨"b", none, [⟨"Z"⟩]⟩]
  types := [("W", .unit), ("X", .named ["x"]), ("Y", .unit), ("Z", .tuple 1)]

theorem run_without_lost_thinned :
    (run Emission.fieldMapper crowded crowded.types.introspector {}).isOk = true ∧
      run Emission.fieldMapper thinned thinned.types.introspector { conflicts := .warn } =
        run Emission.fieldMapper crowded crowded.types.introspector {} := by
  have hg : thinned.groups =
      Group.allWithout (fun i j => decide (i = 1 ∧ j = 0)) crowded.groups := by decide
  have hl : ∀ i j, decide (i = 1 ∧ j = 0) = true → IsLost crowded.groups i j := by
    intro i j h
    obtain ⟨rfl, rfl⟩ := of_decide_eq_true h
    exact ⟨⟨"Y"⟩, rfl, 0, 1, .inl Nat.zero_lt_one, rfl⟩
  have ha : ∀ g ∈ crowded.groups, ∀ p ∈ g.claims,
      thinned.types.introspector p = crowded.types.introspector p := by
    decide
  have hv : crowded.isValid = true := by decide +kernel
  have hv' : thinned.isValid = true := by decide +kernel
  exact ⟨by decide +kernel, (run_without_lost Emission.fieldMapper {} .warn hg hl ha hv hv').1⟩

end Generation

end Switchboard
