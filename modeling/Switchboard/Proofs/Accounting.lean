import Mathlib.Algebra.GroupWithZero.Nat
import Switchboard.Plan.Report
import Switchboard.Proofs.Planning
import Switchboard.Proofs.SortedMap

/-! Every claim is accounted for: its group keeps it, or it is dropped with the owner that it lost
to. A report of a plan shows both by the names of groups. -/

namespace Switchboard

/-- Whether a list is made of the items of two others, which it has in their order. -/
inductive Interleaving {α : Type} : List α → List α → List α → Prop
  | nil : Interleaving [] [] []
  | left {a : α} {xs ys zs : List α} (h : Interleaving xs ys zs) :
    Interleaving (a :: xs) ys (a :: zs)
  | right {a : α} {xs ys zs : List α} (h : Interleaving xs ys zs) :
    Interleaving xs (a :: ys) (a :: zs)

private theorem Interleaving.mem_of_mem_right {α : Type} {xs ys zs : List α}
    (h : Interleaving xs ys zs) {a : α} (ha : a ∈ ys) : a ∈ zs := by
  induction h with
  | nil => exact ha
  | left _ ih => exact List.mem_cons_of_mem _ (ih ha)
  | right _ ih =>
    rcases List.mem_cons.mp ha with rfl | ha
    · exact List.mem_cons_self
    · exact List.mem_cons_of_mem _ (ih ha)

namespace Ownership

/-! One group -/

/-- Each claim of a group is kept or dropped. -/
theorem interleaving_claim (group : Nat) (owners : SortedMap Nat) (ps : List SchemaPath) :
    Interleaving (claim group owners ps).2.1 ((claim group owners ps).2.2.map DroppedClaim.path)
      ps := by
  induction ps generalizing owners with
  | nil => exact .nil
  | cons p rest ih =>
    rw [claim]
    split
    · exact .right (ih owners)
    · exact .left (ih _)

/-- A claim is dropped with the group that made it and the owner that the type has in the end. -/
theorem dropped_claim (group : Nat) (owners : SortedMap Nat) (ps : List SchemaPath) :
    ∀ d ∈ (claim group owners ps).2.2, d.group = group ∧
      SortedMap.get? d.path.text (claim group owners ps).1 = some d.owner := by
  induction ps generalizing owners with
  | nil => exact fun _ hd => absurd hd List.not_mem_nil
  | cons p rest ih =>
    rw [claim]
    split
    · rename_i owner ho
      intro d hd
      rcases List.mem_cons.mp hd with rfl | hd
      · refine ⟨rfl, ?_⟩
        dsimp only
        rw [get?_claim, ho]
        rfl
      · exact ih owners d hd
    · exact ih _

/-- Each kept claim gives one type an owner. -/
theorem length_claim (group : Nat) (owners : SortedMap Nat) (ps : List SchemaPath) :
    (claim group owners ps).1.length = owners.length + (claim group owners ps).2.1.length := by
  induction ps generalizing owners with
  | nil => rfl
  | cons p rest ih =>
    rw [claim]
    split
    · exact ih owners
    · rename_i ho
      dsimp only
      rw [ih, SortedMap.length_insert ho, List.length_cons]
      exact Nat.add_right_comm _ _ _

/-! Groups in order -/

section

variable (index : Nat) (owners : SortedMap Nat) (g : Group) (rest : List Group)

private theorem owners_resolveFrom_cons : (resolveFrom index owners (g :: rest)).owners =
    (resolveFrom (index + 1) (claim index owners g.claims).1 rest).owners := rfl

private theorem owned_resolveFrom_cons : (resolveFrom index owners (g :: rest)).owned =
    (claim index owners g.claims).2.1 ::
      (resolveFrom (index + 1) (claim index owners g.claims).1 rest).owned := rfl

private theorem dropped_resolveFrom_cons : (resolveFrom index owners (g :: rest)).dropped =
    (claim index owners g.claims).2.2 ++
      (resolveFrom (index + 1) (claim index owners g.claims).1 rest).dropped := rfl

end

/-- A dropped claim is one of a group, and its owner is the one that the type has in the end. -/
theorem dropped_resolveFrom (index : Nat) (owners : SortedMap Nat) (groups : List Group) :
    ∀ d ∈ (resolveFrom index owners groups).dropped,
      index ≤ d.group ∧ d.group < index + groups.length ∧
        SortedMap.get? d.path.text (resolveFrom index owners groups).owners = some d.owner := by
  induction groups generalizing index owners with
  | nil => exact fun _ hd => absurd hd List.not_mem_nil
  | cons g rest ih =>
    intro d hd
    rw [List.length_cons, owners_resolveFrom_cons]
    rw [dropped_resolveFrom_cons] at hd
    rcases List.mem_append.mp hd with hd | hd
    · obtain ⟨hg, ho⟩ := dropped_claim index owners g.claims d hd
      refine ⟨by omega, by omega, ?_⟩
      -- who owns a type already goes on owning it
      rw [get?_owners_resolveFrom, ho]
      rfl
    · obtain ⟨hlow, hhigh, ho⟩ := ih (index + 1) (claim index owners g.claims).1 d hd
      exact ⟨by omega, by omega, ho⟩

private theorem pairwise_dropped_resolveFrom (index : Nat) (owners : SortedMap Nat)
    (groups : List Group) :
    (resolveFrom index owners groups).dropped.Pairwise fun c d => c.group ≤ d.group := by
  induction groups generalizing index owners with
  | nil => exact .nil
  | cons g rest ih =>
    have hfirst := dropped_claim index owners g.claims
    rw [dropped_resolveFrom_cons]
    refine List.pairwise_append.mpr ⟨List.pairwise_of_forall_mem_list fun c hc d hd => ?_,
      ih (index + 1) _, fun c hc d hd => ?_⟩
    · exact Nat.le_of_eq ((hfirst c hc).1.trans (hfirst d hd).1.symm)
    · rw [(hfirst c hc).1]
      exact Nat.le_of_succ_le (dropped_resolveFrom (index + 1) _ rest d hd).1

/-- What a group owns and what it loses is decided when it claims, by the groups before it. -/
theorem parts_resolveFrom (index : Nat) (owners : SortedMap Nat) {groups : List Group} {i : Nat}
    {g : Group} (h : groups[i]? = some g) :
    (resolveFrom index owners groups).owned[i]? = some (claim (index + i)
        (resolveFrom index owners (groups.take i)).owners g.claims).2.1 ∧
      ((resolveFrom index owners groups).dropped.filter fun d => d.group = index + i) =
        (claim (index + i) (resolveFrom index owners (groups.take i)).owners g.claims).2.2 := by
  induction groups generalizing index owners i with
  | nil => cases h
  | cons first rest ih =>
    have hfirst := dropped_claim index owners first.claims
    have hrest := dropped_resolveFrom (index + 1) (claim index owners first.claims).1 rest
    rw [owned_resolveFrom_cons, dropped_resolveFrom_cons, List.filter_append]
    cases i with
    | zero =>
      cases h
      have hown : ((claim index owners g.claims).2.2.filter fun d => d.group = index + 0) =
          (claim index owners g.claims).2.2 :=
        List.filter_eq_self.mpr fun d hd => by simp [(hfirst d hd).1]
      have hnone : ((resolveFrom (index + 1) (claim index owners g.claims).1 rest).dropped.filter
          fun d => d.group = index + 0) = [] := by
        refine List.filter_eq_nil_iff.mpr fun d hd => ?_
        have := (hrest d hd).1
        simp only [decide_eq_true_eq]
        omega
      rw [hown, hnone, List.append_nil]
      exact ⟨rfl, rfl⟩
    | succ i =>
      have hnone : ((claim index owners first.claims).2.2.filter
          fun d => d.group = index + (i + 1)) = [] := by
        refine List.filter_eq_nil_iff.mpr fun d hd => ?_
        have := (hfirst d hd).1
        simp only [decide_eq_true_eq]
        omega
      rw [hnone, List.nil_append, List.getElem?_cons_succ, List.take_succ_cons,
        owners_resolveFrom_cons, Nat.add_comm i 1, ← Nat.add_assoc]
      exact ih (index + 1) _ h

/-- The claims of each group are those that it owns and those of its own that are dropped. -/
theorem interleaving_resolveFrom (index : Nat) (owners : SortedMap Nat) {groups : List Group}
    {i : Nat} {g : Group} (h : groups[i]? = some g) :
    Interleaving (((resolveFrom index owners groups).owned[i]?).getD [])
      (((resolveFrom index owners groups).dropped.filter fun d => d.group = index + i).map
        DroppedClaim.path) g.claims := by
  obtain ⟨hown, hlost⟩ := parts_resolveFrom index owners h
  rw [hown, hlost]
  exact interleaving_claim _ _ g.claims

theorem length_owners_resolveFrom (index : Nat) (owners : SortedMap Nat) (groups : List Group) :
    (resolveFrom index owners groups).owners.length =
      owners.length + (resolveFrom index owners groups).owned.flatten.length := by
  induction groups generalizing index owners with
  | nil => rfl
  | cons g rest ih =>
    rw [owners_resolveFrom_cons, owned_resolveFrom_cons, ih, length_claim, List.flatten_cons,
      List.length_append, Nat.add_assoc]

/-! All groups -/

/-- That claims are accounted for: every claim of a group is owned by it or dropped, in order, and
who owns what is told alike by owner, by group and by pairs. -/
structure Accounts (o : Ownership) (groups : List Group) : Prop where
  parted : ∀ i g, groups[i]? = some g → Interleaving (o.ownedBy i)
    ((o.dropped.filter fun d => d.group = i).map DroppedClaim.path) g.claims
  /-- Dropped claims are in the order of groups. Those of one group are in its order. -/
  ordered : o.dropped.Pairwise fun c d => c.group ≤ d.group
  lost : ∀ d ∈ o.dropped, d.group < groups.length ∧ d.owner ≤ d.group ∧
    o.ownerOf d.path = some d.owner
  nodup : ∀ i, (o.ownedBy i).Nodup
  disjoint : ∀ i j, i ≠ j → (o.ownedBy i).Disjoint (o.ownedBy j)
  count : o.groupCount = groups.length
  size : o.size = ((List.range groups.length).map fun i => (o.ownedBy i).length).sum
  pairs : o.pairs = (List.range groups.length).flatMap fun i => (o.ownedBy i).map (·, i)
  /-- Owned types are in the order of their first claims. -/
  first : o.pairs.map Prod.fst = Plan.claimedTypes groups
  owner : ∀ p g, o.ownerOf p = some g ↔ (p, g) ∈ o.pairs

/-- What is owned, group by group. -/
theorem owned_resolve (groups : List Group) :
    (resolve groups).owned = (List.range groups.length).map (resolve groups).ownedBy := by
  have hl : (resolve groups).owned.length = groups.length := groupCount_resolve groups
  apply List.ext_getElem (by simp [hl])
  intro i h1 h2
  simp [ownedBy, List.getElem?_eq_getElem h1]

private theorem pairs_resolve (groups : List Group) :
    (resolve groups).pairs =
      (List.range groups.length).flatMap fun i => ((resolve groups).ownedBy i).map (·, i) := by
  have hz : (List.range groups.length).zipIdx = (List.range groups.length).map fun i => (i, i) := by
    apply List.ext_getElem (by simp)
    intro i h1 h2
    simp
  rw [pairs, owned_resolve, List.zipIdx_map, hz, List.map_map, List.flatMap_map]
  rfl

private theorem mem_pairs_resolve (groups : List Group) (p : SchemaPath) (g : Nat) :
    (p, g) ∈ (resolve groups).pairs ↔ (resolve groups).ownerOf p = some g := by
  rw [pairs_resolve, ownerOf, get?_owners_resolve, ← mem_ownedBy_resolve, List.mem_flatMap]
  constructor
  · rintro ⟨i, -, hp⟩
    obtain ⟨q, hq, he⟩ := List.mem_map.mp hp
    cases he
    exact hq
  · intro hp
    have hg := claimant?_lt ((mem_ownedBy_resolve groups g p).mp hp)
    exact ⟨g, List.mem_range.mpr hg, List.mem_map.mpr ⟨p, hp, rfl⟩⟩

/-- The owner of a dropped claim comes no later than the group that made it. -/
theorem lost_resolve (groups : List Group) :
    ∀ d ∈ (resolve groups).dropped, d.group < groups.length ∧ d.owner ≤ d.group ∧
      (resolve groups).ownerOf d.path = some d.owner := by
  intro d hd
  obtain ⟨-, hlt, ho⟩ := dropped_resolveFrom 0 [] groups d hd
  rw [Nat.zero_add] at hlt
  refine ⟨hlt, ?_, ho⟩
  have hg : groups[d.group]? = some groups[d.group] := List.getElem?_eq_getElem hlt
  have hclaims : d.path ∈ groups[d.group].claims := by
    refine (interleaving_resolveFrom 0 [] hg).mem_of_mem_right (List.mem_map_of_mem ?_)
    exact List.mem_filter.mpr ⟨hd, by simp⟩
  have hc := get?_owners_resolve groups d.path.text
  rw [resolve, ho] at hc
  obtain ⟨-, hleast⟩ := (claimant?_eq_some_iff groups _ _).mp hc.symm
  exact Nat.le_of_not_lt fun hgt =>
    hleast d.group hgt _ hg ((Group.claims_text_iff _ d.path).mpr hclaims)

private theorem accounts_resolve (groups : List Group) : (resolve groups).Accounts groups where
  parted i g hg := by
    have h := interleaving_resolveFrom 0 [] hg
    rw [Nat.zero_add] at h
    exact h
  ordered := pairwise_dropped_resolveFrom 0 [] groups
  lost := lost_resolve groups
  nodup := nodup_ownedBy_resolve groups
  disjoint i j hne p hi hj := by
    rw [mem_ownedBy_resolve] at hi hj
    exact hne (Option.some.inj (hi.symm.trans hj))
  count := groupCount_resolve groups
  size := by
    have h := length_owners_resolveFrom 0 [] groups
    change (resolve groups).size = 0 + (resolve groups).owned.flatten.length at h
    rw [h, Nat.zero_add, List.length_flatten, owned_resolve, List.map_map]
    rfl
  pairs := pairs_resolve groups
  first := by
    rw [pairs_resolve, List.map_flatMap, Plan.claimedTypes, ← flatten_owned_resolve, owned_resolve,
      List.flatMap_def]
    simp [Function.comp_def]
  owner p g := (mem_pairs_resolve groups p g).symm

end Ownership

/-- Mapped types and the others make up the types that there are answers for. -/
theorem ArityFilter.interleaving_parts {ask : Introspector} {ps : List SchemaPath}
    (hok : ∀ p ∈ ps, ∃ c, ask p = .ok c) :
    Interleaving ((mappedOf ask ps).map MappedType.path) (fieldlessOf ask ps) ps := by
  induction ps with
  | nil => exact .nil
  | cons p rest ih =>
    obtain ⟨⟨c, hc⟩, hrest⟩ := List.forall_mem_cons.mp hok
    cases hf : c.hasFields with
    | true =>
      obtain ⟨hm, hl⟩ := parts_cons_of_hasFields hc hf rest
      rw [hm, hl]
      exact .left (ih hrest)
    | false =>
      obtain ⟨hm, hl⟩ := parts_cons_of_fieldless hc hf rest
      rw [hm, hl]
      exact .right (ih hrest)

namespace Report

/-- That a report shows one entry for a group, with what the group owns in two parts. -/
structure ShowsGroup (o : Ownership) (index : Nat) (g : Group) (entry : GroupReport) : Prop where
  name : entry.name = g.name
  accessor : entry.accessor = g.accessorName
  converter : entry.converter = g.converterName
  module : entry.module = g.moduleName
  owned : entry.owned = o.ownedBy index
  parted : Interleaving entry.mapped entry.fieldless entry.owned

/-- That a report shows a plan: every group that it looks up is there, and it has one entry for each
group and one for each dropped claim, in order. -/
structure Shows (r : Report) (p : Plan) : Prop where
  files : ∀ f ∈ p.files, f.group < p.groups.length
  lost : ∀ d ∈ p.ownership.dropped, d.group < p.groups.length ∧ d.owner < p.groups.length
  groups : List.Forall₂ (fun (g : Group × Nat) entry => ShowsGroup p.ownership g.2 g.1 entry)
    p.groups.zipIdx r.groups
  dropped : List.Forall₂ (fun d entry => ∃ g owner, p.groups[d.group]? = some g ∧
    p.groups[d.owner]? = some owner ∧ entry = ⟨d.path, g.name, owner.name⟩)
    p.ownership.dropped r.dropped
  decode : r.decode = p.tables.decode.cases
  encode : r.encode = p.tables.encode.cases

open Ownership

variable {m : Model} {ask : Introspector} {c : Config} {p : Plan}

/-- What a report says of the group of a file, as the answers make it. -/
theorem showsGroup_ofFile (h : (Plan.make m ask c).2 = .ok p) {g : Group} {i : Nat}
    (hg : m.groups[i]? = some g) :
    ShowsGroup p.ownership i g
      (ofFile p (ArityFilter.fileOf ask i g ((resolve m.groups).ownedBy i))) := by
  obtain ⟨hok, tables, -, rfl⟩ := Plan.make_eq_ok h
  have hown : ∀ q ∈ (resolve m.groups).ownedBy i, ∃ k, ask q = .ok k := fun q hq =>
    hok q ((Plan.mem_claimedTypes m.groups q).mpr ⟨i, (mem_ownedBy_resolve m.groups i q).mp hq⟩)
  have hparts := ArityFilter.interleaving_parts hown
  refine ⟨rfl, ?_, rfl, rfl, rfl, ?_⟩
  · rw [ofFile, ArityFilter.fileOf]
    dsimp only
    rw [hg]
    rfl
  · rw [ofFile, ArityFilter.fileOf, Plan.eraseDups_of_nodup (nodup_ownedBy_resolve m.groups i)]
    exact hparts

private theorem shows_ofPlan (h : (Plan.make m ask c).2 = .ok p) : (ofPlan p).Shows p := by
  have hshow := @showsGroup_ofFile m ask c p h
  obtain ⟨-, tables, -, rfl⟩ := Plan.make_eq_ok h
  have hlost : ∀ d ∈ (resolve m.groups).dropped,
      d.group < m.groups.length ∧ d.owner < m.groups.length := by
    intro d hd
    obtain ⟨hg, ho, -⟩ := lost_resolve m.groups d hd
    exact ⟨hg, Nat.lt_of_le_of_lt ho hg⟩
  constructor
  case files =>
    intro f hf
    obtain ⟨⟨i, g, owned⟩, hs, rfl⟩ := List.mem_map.mp hf
    obtain ⟨⟨g, i⟩, hz, he⟩ := List.mem_map.mp hs
    cases he
    have hi := (List.mem_zipIdx hz).2.1
    rw [Nat.zero_add] at hi
    exact hi
  case lost => exact hlost
  case groups =>
    simp only [ofPlan, Plan.filesOf, Plan.shares, List.map_map, List.forall₂_map_right_iff]
    refine List.forall₂_same.mpr fun x hx => ?_
    exact hshow (List.mem_zipIdx_iff_getElem?.mp hx)
  case dropped =>
    simp only [ofPlan, List.forall₂_map_right_iff]
    refine List.forall₂_same.mpr fun d hd => ?_
    obtain ⟨hg, ho⟩ := hlost d hd
    refine ⟨m.groups[d.group], m.groups[d.owner], List.getElem?_eq_getElem hg,
      List.getElem?_eq_getElem ho, ?_⟩
    simp [ofClaim, Plan.groupName, List.getElem?_eq_getElem hg, List.getElem?_eq_getElem ho]
  case decode => rfl
  case encode => rfl

/-- Every claim is accounted for when ownership is resolved, for any groups. A plan has the groups of
its model and what they own, and its report shows exactly that. -/
theorem claims_accounted :
    (∀ groups, (resolve groups).Accounts groups) ∧
    ∀ m ask c p, (Plan.make m ask c).2 = .ok p →
      p.groups = m.groups ∧ p.ownership = resolve m.groups ∧ (ofPlan p).Shows p := by
  refine ⟨accounts_resolve, fun m ask c p h => ?_⟩
  obtain ⟨-, tables, -, hp⟩ := Plan.make_eq_ok h
  exact ⟨by rw [hp], by rw [hp], shows_ofPlan h⟩

/-- A group that claims a type twice, and one that loses all its claims. -/
def outclaimed : Model where
  groups := [⟨"a", none, [⟨"X"⟩, ⟨"Y"⟩, ⟨"X"⟩, ⟨"Z"⟩]⟩, ⟨"b", some "d", [⟨"Z"⟩, ⟨"X"⟩]⟩]
  types := [("X", .named ["x"]), ("Y", .unit), ("Z", .tuple 1)]

theorem claims_accounted_outclaimed :
    ∃ p, (Plan.make outclaimed outclaimed.types.introspector {}).2 = .ok p ∧
      (ofPlan p).Shows p ∧ p.ownership.dropped = [⟨⟨"X"⟩, 0, 0⟩, ⟨⟨"Z"⟩, 1, 0⟩, ⟨⟨"X"⟩, 1, 0⟩] := by
  obtain ⟨p, hp⟩ : ∃ p, (Plan.make outclaimed outclaimed.types.introspector {}).2 = .ok p :=
    Plan.exists_make_eq_ok (by decide +kernel) (by decide +kernel) (by decide +kernel)
  obtain ⟨-, howned, hshows⟩ := claims_accounted.2 _ _ _ p hp
  refine ⟨p, hp, hshows, ?_⟩
  rw [howned]
  decide +kernel

end Report

end Switchboard
