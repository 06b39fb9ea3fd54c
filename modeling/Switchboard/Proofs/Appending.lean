import Switchboard.Proofs.Accounting
import Switchboard.Proofs.Collisions

/-! Groups that are appended to a model. What was decided about the groups before them stays: who
owns what, the files of converters, the cases of both tables and the arms of the dispatcher. -/

namespace Switchboard

open DispatchTables (casesOf)

variable {groups more : List Group}

/-- Items of a longer list come after what the items of a shorter one become. -/
theorem Traversal.prefix_mapM {α β ε : Type} {f : α → Except ε β} {xs xs' : List α}
    {ys ys' : List β} (hp : xs <+: xs') (h : xs.mapM f = .ok ys) (h' : xs'.mapM f = .ok ys') :
    ys <+: ys' := by
  obtain ⟨zs, rfl⟩ := hp
  rw [List.mapM_append, bind_eq_ok_iff] at h'
  obtain ⟨first, hfirst, h'⟩ := h'
  rw [h] at hfirst
  cases hfirst
  obtain ⟨rest, -, h'⟩ := bind_eq_ok_iff.mp h'
  exact ⟨rest, pure_eq_ok_iff.mp h'⟩

namespace Ownership

/-! ## Who owns what -/

/-- Claims of types that had an owner before some groups claimed are dropped with that owner. -/
theorem lost_claim (group : Nat) {before owners : SortedMap Nat}
    (h : ∀ name owner, SortedMap.get? name before = some owner →
      SortedMap.get? name owners = some owner) (ps : List SchemaPath) :
    ((claim group owners ps).2.2.filter fun d => (SortedMap.get? d.path.text before).isSome) =
      ps.filterMap fun p => (SortedMap.get? p.text before).map fun owner => ⟨p, group, owner⟩ := by
  induction ps generalizing owners with
  | nil => rfl
  | cons p rest ih =>
    rw [claim]
    split
    · rename_i owner ho
      cases hb : SortedMap.get? p.text before with
      | none => simp [hb, ih h]
      | some first =>
        have hsame : first = owner := Option.some.inj ((h _ _ hb).symm.trans ho)
        simp [hb, hsame, ih h]
    · rename_i ho
      have hb : SortedMap.get? p.text before = none := by
        cases hb : SortedMap.get? p.text before with
        | none => rfl
        | some first =>
          rw [h _ _ hb] at ho
          cases ho
      have hnext : ∀ name owner, SortedMap.get? name before = some owner →
          SortedMap.get? name (SortedMap.insert p.text group owners) = some owner := by
        intro name owner hn
        have hne : name ≠ p.text := by
          rintro rfl
          rw [hb] at hn
          cases hn
        rw [SortedMap.get?_insert, if_neg hne]
        exact h name owner hn
      simp [hb, ih hnext]

private theorem claimant?_append {name : String} {g : Nat} (h : claimant? groups name = some g)
    (more : List Group) : claimant? (groups ++ more) name = some g := by
  rw [claimant?] at h ⊢
  rw [List.findIdx?_append, h]
  rfl

/-- The groups that were there own what they owned. -/
theorem ownedBy_resolve_append {i : Nat} (hi : i < groups.length) (more : List Group) :
    (resolve (groups ++ more)).ownedBy i = (resolve groups).ownedBy i := by
  have hg : groups[i]? = some groups[i] := List.getElem?_eq_getElem hi
  have hg' : (groups ++ more)[i]? = some groups[i] := by rw [List.getElem?_append_left hi, hg]
  have ht : (groups ++ more).take i = groups.take i := List.take_append_of_le_length (by omega)
  rw [ownedBy, ownedBy, resolve, resolve, (parts_resolveFrom 0 [] hg').1,
    (parts_resolveFrom 0 [] hg).1, ht]

/-- What an appended group claims of types that were owned already is dropped with their owners. -/
theorem lost_resolve_append {i : Nat} {g : Group} (hg : more[i]? = some g) :
    ((resolve (groups ++ more)).dropped.filter fun d =>
        d.group = groups.length + i && ((resolve groups).ownerOf d.path).isSome) =
      g.claims.filterMap fun p =>
        ((resolve groups).ownerOf p).map fun owner => ⟨p, groups.length + i, owner⟩ := by
  have hg' : (groups ++ more)[groups.length + i]? = some g := by
    rw [List.getElem?_append_right (by omega), Nat.add_sub_cancel_left, hg]
  have ht : (groups ++ more).take (groups.length + i) = groups ++ more.take i := by
    rw [List.take_append, List.take_of_length_le (by omega), Nat.add_sub_cancel_left]
  have hlost : ((resolve (groups ++ more)).dropped.filter fun d => d.group = groups.length + i) =
      (claim (groups.length + i) (resolve (groups ++ more.take i)).owners g.claims).2.2 := by
    have h := (parts_resolveFrom 0 [] hg').2
    rw [Nat.zero_add, ht] at h
    exact h
  have hswap : ((resolve (groups ++ more)).dropped.filter fun d =>
      d.group = groups.length + i && ((resolve groups).ownerOf d.path).isSome) =
      ((resolve (groups ++ more)).dropped.filter fun d => d.group = groups.length + i).filter
        fun d => ((resolve groups).ownerOf d.path).isSome := by
    rw [List.filter_filter]
    exact List.filter_congr fun d _ => Bool.and_comm _ _
  rw [hswap, hlost]
  refine lost_claim _ (fun name owner ho => ?_) g.claims
  rw [get?_owners_resolve] at ho ⊢
  exact claimant?_append ho _

end Ownership

open Ownership

/-! ## Plans -/

private theorem DispatchTables.casesOf_append (groups more : List Group) :
    casesOf (resolve groups) (List.range groups.length) <+:
      casesOf (resolve (groups ++ more)) (List.range (groups ++ more).length) := by
  have howned : ∀ i ∈ List.range groups.length,
      (resolve (groups ++ more)).ownedBy i = (resolve groups).ownedBy i := fun i hi =>
    ownedBy_resolve_append (List.mem_range.mp hi) more
  have hfirst : casesOf (resolve (groups ++ more)) (List.range groups.length) =
      casesOf (resolve groups) (List.range groups.length) := by
    rw [casesOf, casesOf, List.filter_congr fun i hi => by rw [howned i hi]]
    exact List.map_congr_left fun i hi => by rw [howned i (List.mem_filter.mp hi).1]
  rw [List.length_append, List.range_add, ← hfirst, casesOf, casesOf, List.filter_append,
    List.map_append]
  exact List.prefix_append _ _

private theorem Plan.filesOf_append (groups more : List Group) (ask : Introspector) :
    filesOf groups ask <+: filesOf (groups ++ more) ask := by
  rw [List.prefix_iff_getElem?]
  intro i hi
  have hlt : i < groups.length := by simpa [filesOf, shares] using hi
  rw [← List.getElem?_eq_getElem hi, getElem?_filesOf, getElem?_filesOf,
    List.getElem?_append_left hlt, ownedBy_resolve_append hlt]

/-- That a plan goes on from another one that is for the first of its groups: the cases of both
tables come first, every name keeps its group and every type its owner, and what other groups claim
of such types is dropped, each claim with the owner that the type had. -/
structure Plan.Continues (p' p : Plan) : Prop where
  decode : p.tables.decode.cases <+: p'.tables.decode.cases
  encode : p.tables.encode.cases <+: p'.tables.encode.cases
  decoded : ∀ name g, p.tables.decode.groupOf name = some g →
    p'.tables.decode.groupOf name = some g
  encoded : ∀ name g, p.tables.encode.groupOf name = some g →
    p'.tables.encode.groupOf name = some g
  owned : ∀ q g, p.ownership.ownerOf q = some g → p'.ownership.ownerOf q = some g
  lost : ∀ i g, p.groups.length ≤ i → p'.groups[i]? = some g →
    (p'.ownership.dropped.filter fun d =>
        d.group = i && (p.ownership.ownerOf d.path).isSome) =
      g.claims.filterMap fun q => (p.ownership.ownerOf q).map fun owner => ⟨q, i, owner⟩

namespace Emission

/-- Whether arms begin with other ones. On both sides the arm for all other names comes last. -/
def ArmsContinue (arms' arms : List Source.Outline.Arm) : Prop :=
  ∃ first rest, arms = first ++ [⟨.wildcard, unmatched⟩] ∧
    arms' = first ++ rest ++ [⟨.wildcard, unmatched⟩]

private theorem prefix_routeArms {accessors accessors' : List Accessor} {t t' : DispatchTable}
    (ha : accessors <+: accessors') (hc : t.cases <+: t'.cases)
    (hg : ∀ k ∈ t.cases, k.group < accessors.length) :
    routeArms accessors t <+: routeArms accessors' t' := by
  obtain ⟨rest, hrest⟩ := hc
  obtain ⟨others, rfl⟩ := ha
  have hsame : (t.cases.filterMap fun k => ((accessors ++ others)[k.group]?).map fun a =>
      (⟨k.types, a.method⟩ : RouteArm)) = routeArms accessors t :=
    List.filterMap_congr fun k hk => by rw [List.getElem?_append_left (hg k hk)]
  rw [← hsame, routeArms, ← hrest, List.filterMap_append]
  exact List.prefix_append _ _

private theorem armsContinue_of_routes {routes routes' : List RouteArm} (h : routes <+: routes')
    (by' : Source.Word → List Source.Token) :
    ArmsContinue (routes'.map (RouteArm.arm by') ++ [⟨.wildcard, unmatched⟩])
      (routes.map (RouteArm.arm by') ++ [⟨.wildcard, unmatched⟩]) := by
  obtain ⟨rest, rfl⟩ := h
  exact ⟨routes.map (RouteArm.arm by'), rest.map (RouteArm.arm by'), rfl, by rw [List.map_append]⟩

end Emission

namespace Generation

open Emission

variable {emit : Emitter} {m : Model} {ask : Introspector} {c : Config} {s s' : FileSet}

/-- Groups that are appended to a model disturb nothing: the converters come first that were there
before, the plan goes on from the one before, and so do the arms of the dispatcher in both
directions. -/
theorem run_append (h : run emit m ask c = .ok s)
    (h' : run emit { m with groups := m.groups ++ more } ask c = .ok s') :
    s.converters.length = m.groups.length ∧ s'.converters.take m.groups.length = s.converters ∧
      ∃ p p' ts ts' d d', (Plan.make m ask c).2 = .ok p ∧
        (Plan.make { m with groups := m.groups ++ more } ask c).2 = .ok p' ∧ p'.Continues p ∧
        s.dispatcher = .of dispatcherPath none ts ∧ DispatcherText.of? ts = some d ∧
        s'.dispatcher = .of dispatcherPath none ts' ∧ DispatcherText.of? ts' = some d' ∧
        ArmsContinue d'.conversions.decode d.conversions.decode ∧
        ArmsContinue d'.conversions.encode d.conversions.encode := by
  obtain ⟨p, ts, hp, hconverters, hts, hs⟩ := exists_plan_of_run h
  obtain ⟨p', ts', hp', hconverters', hts', hs'⟩ := exists_plan_of_run h'
  obtain ⟨type, mount, accessors, _, _, ha, hd⟩ := of?_dispatcher hp hts
  obtain ⟨type', mount', accessors', _, _, ha', hd'⟩ := of?_dispatcher hp' hts'
  obtain ⟨tables, rfl, hcd, hce, hrd, hre⟩ := Plan.exists_tables_of_make hp
  obtain ⟨tables', rfl, hcd', hce', hrd', hre'⟩ := Plan.exists_tables_of_make hp'
  have hcases := DispatchTables.casesOf_append m.groups more
  have haccessors : accessors <+: accessors' :=
    Traversal.prefix_mapM (List.prefix_append m.groups more) (Traversal.mapM_eq_ok_iff.mpr ha)
      (Traversal.mapM_eq_ok_iff.mpr ha')
  have hgroups : ∀ k ∈ casesOf (resolve m.groups) (List.range m.groups.length),
      k.group < accessors.length := by
    intro k hk
    rw [← ha.length_eq]
    exact (mem_casesOf hk).1
  have hprefix : s.converters <+: s'.converters :=
    Traversal.prefix_mapM (Plan.filesOf_append m.groups more ask) hconverters hconverters'
  have hlength : s.converters.length = m.groups.length := by
    rw [← (Traversal.mapM_eq_ok_iff.mp hconverters).length_eq]
    simp [Plan.filesOf, Plan.shares]
  refine ⟨hlength, ?_, _, _, ts, ts', _, _, hp, hp', ?_, hs, hd, hs', hd', ?_, ?_⟩
  · rw [← hlength]
    exact (List.prefix_iff_eq_take.mp hprefix).symm
  · constructor
    case decode =>
      rw [hcd, hcd']
      exact hcases
    case encode =>
      rw [hce, hce']
      exact hcases
    case decoded =>
      intro name g hg
      rw [hrd] at hg
      rw [hrd']
      exact claimant?_append hg more
    case encoded =>
      intro name g hg
      rw [hre] at hg
      rw [hre']
      exact claimant?_append hg more
    case owned =>
      intro q g hg
      rw [ownerOf, get?_owners_resolve] at hg ⊢
      exact claimant?_append hg more
    case lost =>
      intro i g hi hg
      obtain ⟨j, rfl⟩ := Nat.exists_eq_add_of_le hi
      refine lost_resolve_append ?_
      rw [← hg, List.getElem?_append_right (by omega), Nat.add_sub_cancel_left]
  · refine armsContinue_of_routes (prefix_routeArms haccessors ?_ ?_) decodeBy
    · rw [hcd, hcd']
      exact hcases
    · rw [hcd]
      exact hgroups
  · refine armsContinue_of_routes (prefix_routeArms haccessors ?_ ?_) encodeBy
    · rw [hce, hce']
      exact hcases
    · rw [hce]
      exact hgroups

/-- A model with one group. -/
def narrow : Model where
  groups := [⟨"a", none, [⟨"X"⟩, ⟨"Y"⟩]⟩]
  types := [("X", .named ["x"]), ("Y", .unit), ("Z", .tuple 1)]

/-- Groups that claim what is claimed already, one of them something new. -/
def latecomers : List Group := [⟨"b", none, [⟨"Y"⟩, ⟨"Z"⟩, ⟨"Y"⟩]⟩, ⟨"c", none, [⟨"X"⟩]⟩]

theorem run_append_latecomers :
    ∃ s s', run fieldMapper narrow narrow.types.introspector {} = .ok s ∧
      run fieldMapper { narrow with groups := narrow.groups ++ latecomers }
        narrow.types.introspector {} = .ok s' ∧
      s'.converters.take 1 = s.converters ∧
      ∃ p', (Plan.make { narrow with groups := narrow.groups ++ latecomers }
          narrow.types.introspector {}).2 = .ok p' ∧
        (p'.ownership.dropped.filter fun d =>
            d.group = 1 && ((resolve narrow.groups).ownerOf d.path).isSome) =
          [⟨⟨"Y"⟩, 1, 0⟩, ⟨⟨"Y"⟩, 1, 0⟩] := by
  obtain ⟨s, hs⟩ : ∃ s, run fieldMapper narrow narrow.types.introspector {} = .ok s :=
    Traversal.exists_of_isOk (by decide +kernel)
  obtain ⟨s', hs'⟩ : ∃ s', run fieldMapper { narrow with groups := narrow.groups ++ latecomers }
      narrow.types.introspector {} = .ok s' :=
    Traversal.exists_of_isOk (by decide +kernel)
  obtain ⟨-, hconverters, p, p', _, _, _, _, hp, hp', hplan, -⟩ := run_append hs hs'
  refine ⟨s, s', hs, hs', hconverters, p', hp', ?_⟩
  obtain ⟨_, rfl, -⟩ := Plan.exists_tables_of_make hp
  have hgroups : p'.groups[1]? = some ⟨"b", none, [⟨"Y"⟩, ⟨"Z"⟩, ⟨"Y"⟩]⟩ := by
    rw [Plan.groups_of_make hp']
    rfl
  have hlost : ([⟨"Y"⟩, ⟨"Z"⟩, ⟨"Y"⟩] : List SchemaPath).filterMap (fun q =>
      ((resolve narrow.groups).ownerOf q).map fun owner => (⟨q, 1, owner⟩ : DroppedClaim)) =
      [⟨⟨"Y"⟩, 1, 0⟩, ⟨⟨"Y"⟩, 1, 0⟩] := by decide +kernel
  exact (hplan.lost 1 _ (Nat.le_refl 1) hgroups).trans hlost

end Generation

end Switchboard
