import Mathlib.Data.List.Nodup
import Switchboard.Plan.Tables
import Switchboard.Proofs.Ownership

/-! Dispatch tables. A case is accepted just when its names are new and distinct, and the tables
made from who owns what route every name to its claimant. -/

namespace Switchboard

namespace DispatchTable

/-- There is no clash just when the names are distinct and none is routed or comes before. -/
theorem clash?_eq_none_iff (t : DispatchTable) (group : Nat) (before types : List String) :
    t.clash? group before types = none ↔
      types.Nodup ∧ ∀ name ∈ types, t.groupOf name = none ∧ name ∉ before := by
  induction types generalizing before with
  | nil => simp [clash?]
  | cons name rest ih =>
    simp only [clash?]
    cases hg : t.groupOf name with
    | some first => simp [hg]
    | none =>
      by_cases hb : name ∈ before
      · simp [hb]
      · rw [if_neg (by simpa using hb), ih]
        simp only [List.nodup_cons, List.mem_cons, not_or, forall_eq_or_imp, hg, hb]
        constructor
        · rintro ⟨hn, hr⟩
          have hne : name ∉ rest := fun hm => (hr name hm).2.1 rfl
          exact ⟨⟨hne, hn⟩, ⟨trivial, not_false⟩,
            fun other ho => ⟨(hr other ho).1, (hr other ho).2.2⟩⟩
        · rintro ⟨⟨hne, hn⟩, _, hr⟩
          refine ⟨hn, fun other ho => ⟨(hr other ho).1, ?_, (hr other ho).2⟩⟩
          rintro rfl
          exact hne ho

/-- The index after the names of a case have been put into it. -/
theorem get?_foldl_insert (group : Nat) (types : List String) (index : SortedMap Nat)
    (name : String) :
    SortedMap.get? name (types.foldl (fun index name => SortedMap.insert name group index) index) =
      if name ∈ types then some group else SortedMap.get? name index := by
  induction types generalizing index with
  | nil => simp
  | cons first rest ih =>
    rw [List.foldl_cons, ih, SortedMap.get?_insert]
    by_cases hr : name ∈ rest
    · simp [hr]
    · by_cases hf : name = first <;> simp [hr, hf]

/-- The table with a case that is known to be acceptable. -/
def pushed (t : DispatchTable) (group : Nat) (types : List String) : DispatchTable :=
  ⟨t.cases ++ [⟨group, types⟩],
    types.foldl (fun index name => SortedMap.insert name group index) t.index⟩

@[simp] theorem cases_pushed (t : DispatchTable) (group : Nat) (types : List String) :
    (t.pushed group types).cases = t.cases ++ [⟨group, types⟩] := rfl

theorem groupOf_pushed (t : DispatchTable) (group : Nat) (types : List String) (name : String) :
    (t.pushed group types).groupOf name = if name ∈ types then some group else t.groupOf name :=
  get?_foldl_insert group types t.index name

/-- A case is accepted if it has names, all distinct and none of them routed. -/
theorem push_eq_ok {t : DispatchTable} {types : List String} (group : Nat) (hne : types ≠ [])
    (hn : types.Nodup) (hr : ∀ name ∈ types, t.groupOf name = none) :
    t.push group types = .ok (t.pushed group types) := by
  have hc : t.clash? group [] types = none := by
    rw [clash?_eq_none_iff]
    exact ⟨hn, fun name hm => ⟨hr name hm, List.not_mem_nil⟩⟩
  rw [push, if_neg (by simpa using hne), hc]
  rfl

end DispatchTable

namespace DispatchTables

open Ownership

/-- The case of each of some groups that owns anything. -/
def casesOf (o : Ownership) (groups : List Nat) : List DispatchCase :=
  (groups.filter fun g => !(o.ownedBy g).isEmpty).map fun g =>
    ⟨g, (o.ownedBy g).map SchemaPath.text⟩

/-- Whether a table routes every name to its claimant, if that is one of some groups, and no other
name. -/
def RoutesTo (groups : List Group) (done : List Nat) (t : DispatchTable) : Prop :=
  ∀ name, t.groupOf name = (claimant? groups name).filter fun g => done.contains g

private theorem routesTo_push {groups : List Group} {done : List Nat} {t : DispatchTable} {g : Nat}
    (h : RoutesTo groups done t) (hg : g ∉ done)
    (hne : ((resolve groups).ownedBy g).map SchemaPath.text ≠ []) :
    let types := ((resolve groups).ownedBy g).map SchemaPath.text
    t.push g types = .ok (t.pushed g types) ∧ RoutesTo groups (done ++ [g]) (t.pushed g types) := by
  have hm (name : String) :
      name ∈ ((resolve groups).ownedBy g).map SchemaPath.text ↔
        claimant? groups name = some g := by
    rw [List.mem_map]
    constructor
    · rintro ⟨p, hp, rfl⟩
      exact (mem_ownedBy_resolve groups g p).mp hp
    · intro hc
      exact ⟨⟨name⟩, (mem_ownedBy_resolve groups g ⟨name⟩).mpr hc, rfl⟩
  constructor
  · apply DispatchTable.push_eq_ok g hne
    · exact (nodup_ownedBy_resolve groups g).map fun p q he => SchemaPath.text_inj.mp he
    · intro name hn
      rw [h, (hm name).mp hn]
      simp [hg]
  · intro name
    rw [DispatchTable.groupOf_pushed]
    by_cases hc : claimant? groups name = some g
    · rw [if_pos ((hm name).mpr hc), hc]
      simp [Option.filter]
    · rw [if_neg fun hn => hc ((hm name).mp hn), h]
      cases ho : claimant? groups name with
      | none => rfl
      | some other =>
        have hne : other ≠ g := fun he => hc (he ▸ ho)
        simp [Option.filter, hne]

private theorem routesTo_skip {groups : List Group} {done : List Nat} {t : DispatchTable} {g : Nat}
    (h : RoutesTo groups done t) (hne : ((resolve groups).ownedBy g).map SchemaPath.text = []) :
    RoutesTo groups (done ++ [g]) t := by
  intro name
  rw [h]
  cases ho : claimant? groups name with
  | none => rfl
  | some other =>
    have hm := (mem_ownedBy_resolve groups other ⟨name⟩).mpr ho
    have hne : other ≠ g := by
      rintro rfl
      rw [List.map_eq_nil_iff] at hne
      simp [hne] at hm
    simp [Option.filter, hne]

/-- Pushing groups in order succeeds. Both tables get the same cases, and route each name to its
claimant once the claimant has been pushed. -/
theorem pushGroups_resolve (groups : List Group) (todo done : List Nat) (tables : DispatchTables)
    (hn : (done ++ todo).Nodup) (hd : RoutesTo groups done tables.decode)
    (he : RoutesTo groups done tables.encode) :
    ∃ result, pushGroups (resolve groups) tables todo = .ok result ∧
      result.decode.cases = tables.decode.cases ++ casesOf (resolve groups) todo ∧
      result.encode.cases = tables.encode.cases ++ casesOf (resolve groups) todo ∧
      RoutesTo groups (done ++ todo) result.decode ∧
      RoutesTo groups (done ++ todo) result.encode := by
  induction todo generalizing done tables with
  | nil => exact ⟨tables, rfl, by simp [casesOf], by simp [casesOf], by simpa using hd,
      by simpa using he⟩
  | cons g rest ih =>
    have hg : g ∉ done := by
      intro hm
      exact (List.nodup_append.mp hn).2.2 g hm g List.mem_cons_self rfl
    have ha : done ++ g :: rest = (done ++ [g]) ++ rest := by simp
    rw [ha] at hn ⊢
    rw [pushGroups]
    by_cases ht : ((resolve groups).ownedBy g).map SchemaPath.text = []
    · obtain ⟨result, hr, hcd, hce, hrd, hre⟩ :=
        ih (done ++ [g]) tables hn (routesTo_skip hd ht) (routesTo_skip he ht)
      have hs : casesOf (resolve groups) (g :: rest) = casesOf (resolve groups) rest := by
        simp [casesOf, List.map_eq_nil_iff.mp ht]
      refine ⟨result, ?_, by rw [hs]; exact hcd, by rw [hs]; exact hce, hrd, hre⟩
      simp only [ht, List.isEmpty_nil, if_true]
      exact hr
    · obtain ⟨hpd, hrd⟩ := routesTo_push hd hg ht
      obtain ⟨hpe, hre⟩ := routesTo_push he hg ht
      obtain ⟨result, hr, hcd, hce, hfd, hfe⟩ := ih (done ++ [g]) ⟨_, _⟩ hn hrd hre
      have hs : casesOf (resolve groups) (g :: rest) =
          ⟨g, ((resolve groups).ownedBy g).map SchemaPath.text⟩ ::
            casesOf (resolve groups) rest := by
        simp [casesOf, mt List.map_eq_nil_iff.mpr ht]
      refine ⟨result, ?_, ?_, ?_, hfd, hfe⟩
      · simp only [List.isEmpty_iff, ht, if_false, hpd, hpe]
        exact hr
      · rw [hs, hcd]
        simp
      · rw [hs, hce]
        simp

/-- Tables can be made from whatever claims there are. -/
theorem build_resolve (groups : List Group) :
    ∃ tables, build (resolve groups) = .ok tables ∧
      tables.decode.cases = casesOf (resolve groups) (List.range groups.length) ∧
      tables.encode.cases = casesOf (resolve groups) (List.range groups.length) ∧
      (∀ name, tables.decode.groupOf name = claimant? groups name) ∧
      ∀ name, tables.encode.groupOf name = claimant? groups name := by
  have h0 : RoutesTo groups [] {} := by
    intro name
    cases claimant? groups name <;> rfl
  obtain ⟨tables, hb, hcd, hce, hrd, hre⟩ :=
    pushGroups_resolve groups (List.range groups.length) [] {} List.nodup_range h0 h0
  have hall (name : String) :
      ((claimant? groups name).filter fun g => ([] ++ List.range groups.length).contains g) =
        claimant? groups name := by
    cases hc : claimant? groups name with
    | none => rfl
    | some g => simp [Option.filter, claimant?_lt hc]
  refine ⟨tables, ?_, hcd, hce, fun name => ?_, fun name => ?_⟩
  · rw [build, groupCount_resolve]
    exact hb
  · rw [hrd, hall]
  · rw [hre, hall]

end DispatchTables

end Switchboard
