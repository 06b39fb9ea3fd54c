import Mathlib.Data.List.Nodup
import Switchboard.Plan.Ownership

/-! Who owns what once groups have claimed in order. A type belongs to the first group that claims
it, and the owned types, group by group, are the distinct claims in the order of their first. -/

namespace Switchboard

/-- Whether a group claims the type with a name. -/
def Group.Claims (g : Group) (name : String) : Prop := ∃ p ∈ g.claims, p.text = name

instance (g : Group) (name : String) : Decidable (g.Claims name) :=
  inferInstanceAs (Decidable (∃ p ∈ g.claims, p.text = name))

theorem Group.claims_text_iff (g : Group) (p : SchemaPath) : g.Claims p.text ↔ p ∈ g.claims := by
  simp [Group.Claims]

namespace Ownership

/-- The first group that claims the type with a name. -/
def claimant? (groups : List Group) (name : String) : Option Nat :=
  groups.findIdx? fun g => decide (g.Claims name)

/-- Whether a group is the one with the least index that claims the type with a name. -/
def IsClaimant (groups : List Group) (name : String) (g : Nat) : Prop :=
  (∃ group, groups[g]? = some group ∧ group.Claims name) ∧
    ∀ j < g, ∀ other, groups[j]? = some other → ¬ other.Claims name

theorem claimant?_eq_some_iff (groups : List Group) (name : String) (g : Nat) :
    claimant? groups name = some g ↔ IsClaimant groups name g := by
  rw [claimant?, List.findIdx?_eq_some_iff_getElem]
  constructor
  · rintro ⟨hg, hc, hl⟩
    refine ⟨⟨groups[g], List.getElem?_eq_getElem hg, by simpa using hc⟩, ?_⟩
    intro j hj other ho
    obtain ⟨hlt, rfl⟩ := List.getElem?_eq_some_iff.mp ho
    simpa using hl j hj
  · rintro ⟨⟨group, hg, hc⟩, hl⟩
    obtain ⟨hlt, rfl⟩ := List.getElem?_eq_some_iff.mp hg
    refine ⟨hlt, by simpa using hc, ?_⟩
    intro j hj
    simpa using hl j hj groups[j] (List.getElem?_eq_getElem _)

theorem IsClaimant.unique {groups : List Group} {name : String} {g g' : Nat}
    (h : IsClaimant groups name g) (h' : IsClaimant groups name g') : g = g' := by
  rw [← claimant?_eq_some_iff] at h h'
  exact Option.some.inj (h.symm.trans h')

theorem claimant?_eq_none_iff (groups : List Group) (name : String) :
    claimant? groups name = none ↔ ∀ group ∈ groups, ¬ group.Claims name := by
  simp [claimant?]

theorem claimant?_lt {groups : List Group} {name : String} {g : Nat}
    (h : claimant? groups name = some g) : g < groups.length := by
  obtain ⟨⟨group, hg, _⟩, _⟩ := (claimant?_eq_some_iff groups name g).mp h
  exact (List.getElem?_eq_some_iff.mp hg).1

/-! One group -/

/-- A claim gives the type to the group unless it had an owner. -/
theorem get?_claim (group : Nat) (owners : SortedMap Nat) (paths : List SchemaPath)
    (name : String) :
    SortedMap.get? name (claim group owners paths).1 =
      (SortedMap.get? name owners).or
        (if ∃ p ∈ paths, p.text = name then some group else none) := by
  induction paths generalizing owners with
  | nil => simp [claim]
  | cons p rest ih =>
    simp only [claim]
    split
    · rename_i owner ho
      rw [ih]
      by_cases hp : p.text = name
      · subst hp
        simp [ho]
      · simp [hp]
    · rename_i ho
      rw [ih, SortedMap.get?_insert]
      by_cases hp : name = p.text
      · subst hp
        simp [ho]
      · simp [hp, Ne.symm hp]

/-- What a group keeps are the distinct claims that had no owner. -/
theorem kept_claim (group : Nat) (owners : SortedMap Nat) (paths : List SchemaPath) :
    (claim group owners paths).2.1 =
      (paths.filter fun p => (SortedMap.get? p.text owners).isNone).eraseDups := by
  induction paths generalizing owners with
  | nil => rfl
  | cons p rest ih =>
    simp only [claim]
    split
    · rename_i owner ho
      simp [ih, ho]
    · rename_i ho
      have hf : (rest.filter fun q => (SortedMap.get? q.text
            (SortedMap.insert p.text group owners)).isNone) =
          (rest.filter fun q => (SortedMap.get? q.text owners).isNone).filter fun q => !q == p := by
        rw [List.filter_filter]
        apply List.filter_congr
        intro q _
        rw [SortedMap.get?_insert]
        by_cases hq : q = p <;> simp [hq]
      simp [ih, hf, ho, List.eraseDups_cons]

/-! Groups in order -/

theorem eraseDups_nodup (ps : List SchemaPath) : ps.eraseDups.Nodup := by
  induction h : ps.length using Nat.strongRecOn generalizing ps with
  | ind n ih =>
    cases ps with
    | nil => simp
    | cons p rest =>
      rw [List.eraseDups_cons, List.nodup_cons]
      constructor
      · simp [List.mem_eraseDups]
      · apply ih _ _ _ rfl
        have := List.length_filter_le (fun q => !q == p) rest
        simp only [List.length_cons] at h
        omega

@[simp] theorem length_owned_resolveFrom (index : Nat) (owners : SortedMap Nat)
    (groups : List Group) : (resolveFrom index owners groups).owned.length = groups.length := by
  induction groups generalizing index owners with
  | nil => rfl
  | cons g rest ih => simp [resolveFrom, ih]

theorem get?_owners_resolveFrom (index : Nat) (owners : SortedMap Nat) (groups : List Group)
    (name : String) :
    SortedMap.get? name (resolveFrom index owners groups).owners =
      (SortedMap.get? name owners).or ((claimant? groups name).map (index + ·)) := by
  induction groups generalizing index owners with
  | nil => simp [resolveFrom, claimant?]
  | cons g rest ih =>
    simp only [resolveFrom, ih, get?_claim, claimant?, List.findIdx?_cons]
    by_cases hc : g.Claims name
    · have hp : ∃ p ∈ g.claims, p.text = name := hc
      cases ho : SortedMap.get? name owners <;> simp [hc, hp]
    · have hp : ¬ ∃ p ∈ g.claims, p.text = name := hc
      rw [if_neg hp]
      cases SortedMap.get? name owners with
      | some owner => simp
      | none =>
        simp only [Option.none_or, hc, decide_false, Bool.false_eq_true, if_false, Option.map_map]
        congr 1
        funext i
        simp only [Function.comp]
        omega

/-- The owned types, group by group, are the distinct claims that had no owner. -/
theorem flatten_owned_resolveFrom (index : Nat) (owners : SortedMap Nat) (groups : List Group) :
    (resolveFrom index owners groups).owned.flatten =
      ((groups.flatMap Group.claims).filter fun p =>
        (SortedMap.get? p.text owners).isNone).eraseDups := by
  induction groups generalizing index owners with
  | nil => rfl
  | cons g rest ih =>
    simp only [resolveFrom, List.flatten_cons, ih, kept_claim, List.flatMap_cons,
      List.filter_append, List.eraseDups_append]
    congr 2
    rw [List.removeAll, List.filter_filter]
    apply List.filter_congr
    intro p _
    rw [get?_claim]
    by_cases hp : p ∈ g.claims
    · cases ho : SortedMap.get? p.text owners <;> simp [hp, ho]
    · simp [hp]

/-- A group owns the types that it is the first to claim. -/
theorem mem_owned_resolveFrom (index : Nat) (owners : SortedMap Nat) (groups : List Group)
    (g : Nat) (p : SchemaPath) :
    p ∈ ((resolveFrom index owners groups).owned[g]?).getD [] ↔
      SortedMap.get? p.text owners = none ∧ claimant? groups p.text = some g := by
  induction groups generalizing index owners g with
  | nil => simp [resolveFrom, claimant?]
  | cons group rest ih =>
    cases g with
    | zero =>
      by_cases hp : p ∈ group.claims <;>
        simp [resolveFrom, kept_claim, List.mem_eraseDups, claimant?, List.findIdx?_cons,
          group.claims_text_iff p, hp]
    | succ g =>
      simp only [resolveFrom, List.getElem?_cons_succ, ih, get?_claim, claimant?,
        List.findIdx?_cons]
      by_cases hp : p ∈ group.claims
      · cases ho : SortedMap.get? p.text owners <;> simp [group.claims_text_iff p, hp]
      · simp [group.claims_text_iff p, hp]

/-! All groups -/

@[simp] theorem groupCount_resolve (groups : List Group) :
    (resolve groups).groupCount = groups.length := length_owned_resolveFrom 0 [] groups

/-- The owner of a type is its claimant. -/
theorem get?_owners_resolve (groups : List Group) (name : String) :
    SortedMap.get? name (resolve groups).owners = claimant? groups name := by
  rw [resolve, get?_owners_resolveFrom]
  simp [SortedMap.get?]

theorem mem_ownedBy_resolve (groups : List Group) (g : Nat) (p : SchemaPath) :
    p ∈ (resolve groups).ownedBy g ↔ claimant? groups p.text = some g := by
  rw [ownedBy, resolve, mem_owned_resolveFrom]
  simp [SortedMap.get?]

theorem flatten_owned_resolve (groups : List Group) :
    (resolve groups).owned.flatten = (groups.flatMap Group.claims).eraseDups := by
  rw [resolve, flatten_owned_resolveFrom]
  simp [SortedMap.get?]

theorem nodup_ownedBy_resolve (groups : List Group) (g : Nat) :
    ((resolve groups).ownedBy g).Nodup := by
  have hn : (resolve groups).owned.flatten.Nodup := by
    rw [flatten_owned_resolve]
    exact eraseDups_nodup _
  rw [ownedBy]
  cases hg : (resolve groups).owned[g]? with
  | none => simp
  | some owned => exact (List.nodup_flatten.mp hn).1 owned (List.mem_of_getElem? hg)

end Ownership

end Switchboard
