import Switchboard.Proofs.Accounting
import Switchboard.Proofs.Offers
import Switchboard.Proofs.Recall

/-! What is logged while a plan is made. Lost claims come first, then the types that were found, and
last what the plan amounts to, if there is one. -/

namespace Switchboard.Plan

open Ownership

/-! Events -/

/-- Whether some events tell of some lost claims in order, each with the names of the group that
made it and of the owner. -/
def TellsLost (groups : List Group) (level : LogLevel) : List DroppedClaim → List Event → Prop :=
  List.Forall₂ fun d e => ∃ g owner, groups[d.group]? = some g ∧ groups[d.owner]? = some owner ∧
    e = .dropped level d.path g.name owner.name

/-- Whether some events tell of lost claims as loudly as is asked for. -/
def TellsConflicts (groups : List Group) (lost : List DroppedClaim) :
    ConflictLevel → List Event → Prop
  | .silent, events => events = []
  | .debug, events => TellsLost groups .debug lost events
  | .warn, events => TellsLost groups .warn lost events

/-- Whether some events tell of types in order, each with the number of its constructor's parameters.
-/
def TellsFound (ask : Introspector) : List SchemaPath → List Event → Prop :=
  List.Forall₂ fun p e => ∃ k, ask p = .ok k ∧ e = .introspected p k.arity

/-- What is logged until planning comes to its end, whichever that is. -/
inductive Trace (m : Model) (ask : Introspector) (c : Config) :
    Except RunError Plan → List Event → Prop
  | setting {fault : SettingFault} (hf : c.fault? = some fault) :
    Trace m ask c (.error (.setting fault)) []
  | validation (hf : c.fault? = none) (hv : m.isValid = false) :
    Trace m ask c (.error (.validation m.errors)) []
  | introspection {lost found : List Event} {before after : List SchemaPath} {p : SchemaPath}
    {e : IntrospectionError} (hf : c.fault? = none) (hv : m.isValid = true)
    (hlost : TellsConflicts m.groups (resolve m.groups).dropped c.conflicts lost)
    (hs : claimedTypes m.groups = before ++ p :: after) (hfound : TellsFound ask before found)
    (he : ask p = .error e) : Trace m ask c (.error (.introspection e)) (lost ++ found)
  | planned {lost found : List Event} {plan : Plan} (hf : c.fault? = none) (hv : m.isValid = true)
    (hlost : TellsConflicts m.groups (resolve m.groups).dropped c.conflicts lost)
    (hfound : TellsFound ask (claimedTypes m.groups) found) :
    Trace m ask c (.ok plan) (lost ++ found ++
      [.planned m.groups.length (claimedTypes m.groups).length (claimedTypes m.groups).length
        (claimedTypes m.groups).length])

private theorem tellsLost_unique {groups : List Group} {level : LogLevel} {lost : List DroppedClaim}
    {events events' : List Event} (h : TellsLost groups level lost events)
    (h' : TellsLost groups level lost events') : events = events' := by
  refine List.right_unique_forall₂' ?_ h h'
  rintro d e e' ⟨g, owner, hg, ho, rfl⟩ ⟨g', owner', hg', ho', rfl⟩
  cases hg.symm.trans hg'
  cases ho.symm.trans ho'
  rfl

private theorem tellsConflicts_unique {groups : List Group} {lost : List DroppedClaim}
    {level : ConflictLevel} {events events' : List Event}
    (h : TellsConflicts groups lost level events) (h' : TellsConflicts groups lost level events') :
    events = events' := by
  cases level with
  | silent => exact h.trans h'.symm
  | debug => exact tellsLost_unique h h'
  | warn => exact tellsLost_unique h h'

private theorem tellsFound_unique {ask : Introspector} {ps : List SchemaPath}
    {events events' : List Event}
    (h : TellsFound ask ps events) (h' : TellsFound ask ps events') : events = events' := by
  refine List.right_unique_forall₂' ?_ h h'
  rintro p e e' ⟨k, hk, rfl⟩ ⟨k', hk', rfl⟩
  cases hk.symm.trans hk'
  rfl

private theorem TellsFound.exists_ok {ask : Introspector} {ps : List SchemaPath}
    {events : List Event} (h : TellsFound ask ps events) : ∀ p ∈ ps, ∃ k, ask p = .ok k := by
  induction h with
  | nil => exact fun p hp => absurd hp List.not_mem_nil
  | cons hp _ ih => exact List.forall_mem_cons.mpr ⟨hp.imp fun _ h => h.1, ih⟩

/-- What is logged is determined by what comes of planning. -/
theorem Trace.unique {m : Model} {ask : Introspector} {c : Config} {outcome : Except RunError Plan}
    {events events' : List Event} (h : Trace m ask c outcome events)
    (h' : Trace m ask c outcome events') : events = events' := by
  cases h with
  | setting => cases h'; rfl
  | validation => cases h'; rfl
  | introspection _ _ hlost hs hfound he =>
    cases h' with
    | introspection _ _ hlost' hs' hfound' he' =>
      have hb := (ArityFilter.reached_of_error _ hfound.exists_ok he).symm.trans
        (hs ▸ hs' ▸ ArityFilter.reached_of_error _ hfound'.exists_ok he')
      cases (List.append_inj' hb rfl).1
      rw [tellsConflicts_unique hlost hlost', tellsFound_unique hfound hfound']
  | planned _ _ hlost hfound =>
    cases h' with
    | planned _ _ hlost' hfound' =>
      rw [tellsConflicts_unique hlost hlost', tellsFound_unique hfound hfound']

/-! What there is to tell -/

private theorem tellsLost_map (groups : List Group) (level : LogLevel) :
    TellsLost groups level (resolve groups).dropped
      ((resolve groups).dropped.map fun d =>
        .dropped level d.path (groupName groups d.group) (groupName groups d.owner)) := by
  refine List.forall₂_map_right_iff.mpr (List.forall₂_same.mpr fun d hd => ?_)
  obtain ⟨hg, hle, -⟩ := lost_resolve groups d hd
  have ho := Nat.lt_of_le_of_lt hle hg
  refine ⟨groups[d.group], groups[d.owner], List.getElem?_eq_getElem hg,
    List.getElem?_eq_getElem ho, ?_⟩
  simp [groupName, List.getElem?_eq_getElem hg, List.getElem?_eq_getElem ho]

private theorem tellsConflicts_droppedEvents (groups : List Group) (level : ConflictLevel) :
    TellsConflicts groups (resolve groups).dropped level
      (droppedEvents groups (resolve groups) level) := by
  cases level with
  | silent => rfl
  | debug => exact tellsLost_map groups .debug
  | warn => exact tellsLost_map groups .warn

/-- Questions in vain are not told of. -/
theorem tellsFound_introspectedEvents {ask : Introspector} {memo : ArityMemo}
    {ps : List SchemaPath} (vain : List SchemaPath)
    (ha : memo.asked.reverse = (ps ++ vain).map fun p => (p, ask p))
    (hok : ∀ p ∈ ps, ∃ k, ask p = .ok k) (hvain : ∀ p ∈ vain, ∃ e, ask p = .error e) :
    TellsFound ask ps (introspectedEvents memo) := by
  rw [introspectedEvents, ha]
  clear ha
  induction ps with
  | nil =>
    rw [List.nil_append, List.filterMap_map, List.filterMap_eq_nil_iff.mpr]
    · exact .nil
    · intro p hp
      obtain ⟨e, he⟩ := hvain p hp
      simp [he]
  | cons p rest ih =>
    obtain ⟨⟨k, hk⟩, hrest⟩ := List.forall_mem_cons.mp hok
    rw [List.cons_append, List.map_cons, List.filterMap_cons, hk]
    exact .cons ⟨k, hk, rfl⟩ (ih hrest)

/-! How many there are -/

private theorem size_resolve (groups : List Group) :
    (resolve groups).size = (claimedTypes groups).length := by
  have h := length_owners_resolveFrom 0 [] groups
  change (resolve groups).size = 0 + (resolve groups).owned.flatten.length at h
  rw [h, Nat.zero_add, flatten_owned_resolve, claimedTypes]

private theorem nodup_claimedTypes (groups : List Group) : (claimedTypes groups).Nodup :=
  eraseDups_nodup _

private theorem length_known {ask : Introspector} {memo : ArityMemo} {groups : List Group}
    (h : memo.Recalls ask (claimedTypes groups))
    (hok : ∀ p ∈ claimedTypes groups, ∃ k, ask p = .ok k) :
    memo.known.length = (claimedTypes groups).length := by
  have ha : (claimedTypes groups).filter (fun p => (ask p).isOk) = claimedTypes groups := by
    refine List.filter_eq_self.mpr fun p hp => ?_
    obtain ⟨k, hk⟩ := hok p hp
    rw [hk]
    rfl
  rw [h.size, answered, ha, eraseDups_of_nodup (nodup_claimedTypes groups)]

end Switchboard.Plan

namespace Switchboard.DispatchTables

open Ownership

private theorem exact_push {t u : DispatchTable} (h : t.Exact) {group : Nat} {types : List String}
    (hp : t.push group types = .ok u) : u.Exact := by
  have ho := h.offer ⟨group, types⟩
  rw [DispatchTable.push_eq t ⟨group, types⟩] at hp
  cases hr : t.offer ⟨group, types⟩ with
  | mk refusal v =>
    rw [hr] at hp ho
    cases refusal with
    | none =>
      cases hp
      exact ho
    | some e => cases hp

private theorem exact_pushGroups {o : Ownership} {groups : List Nat}
    {tables result : DispatchTables}
    (h : tables.decode.Exact) (hp : pushGroups o tables groups = .ok result) :
    result.decode.Exact := by
  induction groups generalizing tables with
  | nil =>
    cases hp
    exact h
  | cons g rest ih =>
    rw [pushGroups] at hp
    split at hp
    · exact ih h hp
    · obtain ⟨decode, hd, hp⟩ := Traversal.bind_eq_ok_iff.mp hp
      obtain ⟨encode, -, hp⟩ := Traversal.bind_eq_ok_iff.mp hp
      exact ih (exact_push h hd) hp

private theorem flatMap_casesOf (o : Ownership) (groups : List Nat) :
    (casesOf o groups).flatMap DispatchCase.types =
      (groups.flatMap o.ownedBy).map SchemaPath.text := by
  rw [casesOf, List.flatMap_map, List.map_flatMap]
  induction groups with
  | nil => rfl
  | cons g rest ih =>
    rw [List.filter_cons, List.flatMap_cons, ← ih]
    split
    · rfl
    · rename_i he
      have hn : o.ownedBy g = [] := by simpa using he
      rw [hn]
      rfl

/-- As many names are routed as there are claimed types. -/
theorem size_decode {groups : List Group} {tables : DispatchTables}
    (hb : build (resolve groups) = .ok tables) :
    tables.decode.size = (Plan.claimedTypes groups).length := by
  obtain ⟨tables', hb', hcases, -⟩ := build_resolve groups
  cases hb.symm.trans hb'
  have he : tables.decode.Exact := exact_pushGroups DispatchTable.exact_empty hb
  have ho : (List.range groups.length).flatMap (resolve groups).ownedBy =
      Plan.claimedTypes groups := by
    rw [Plan.claimedTypes, ← flatten_owned_resolve, owned_resolve, List.flatMap_def]
  rw [he.size_eq, DispatchTable.keys, hcases, flatMap_casesOf, ho, List.length_map]

end Switchboard.DispatchTables

namespace Switchboard.Plan

open Ownership

variable {m : Model} {ask : Introspector} {c : Config}

/-- Planning once it is known how the claimed types are visited. -/
theorem ofValid_of_visit (level : ConflictLevel) {memo : ArityMemo}
    {result : Except IntrospectionError Unit}
    (hv : ArityFilter.visit ask (claimedTypes m.groups) {} = (memo, result)) :
    ∃ tables, DispatchTables.build (resolve m.groups) = .ok tables ∧
      ofValid m ask level =
        let events := droppedEvents m.groups (resolve m.groups) level ++ introspectedEvents memo
        match result with
        | .error e => ⟨memo.asked.reverse, events, .error (.introspection e)⟩
        | .ok _ => ⟨memo.asked.reverse,
          events ++ [.planned m.groups.length (resolve m.groups).size memo.known.length
            tables.decode.size],
          .ok ⟨m.groups, resolve m.groups, filesOf m.groups ask, tables⟩⟩ := by
  obtain ⟨tables, hb, -⟩ := DispatchTables.build_resolve m.groups
  have hf := ArityFilter.files_eq (ArityMemo.faithful_empty ask)
    (shares m.groups (resolve m.groups))
  rw [flatMap_shares, hv] at hf
  refine ⟨tables, hb, ?_⟩
  cases result with
  | error e => simp only [ofValid, hf]
  | ok u => simp only [ofValid, hf, hb, filesOf]

private theorem trace_of_ok (hf : c.fault? = none) (hv : m.isValid = true)
    (hok : ∀ p ∈ claimedTypes m.groups, ∃ k, ask p = .ok k) :
    Trace m ask c (make m ask c).2 (make m ask c).1 := by
  obtain ⟨hr, ha⟩ := ArityFilter.visit_of_ok {} (nodup_claimedTypes m.groups) (fun p _ => rfl) hok
  have hm := ArityFilter.visit_recalls (ArityMemo.recalls_empty ask) (claimedTypes m.groups)
  rw [ArityFilter.reached_of_ok hok, List.nil_append] at hm
  cases hvisit : ArityFilter.visit ask (claimedTypes m.groups) {} with
  | mk memo result =>
    rw [hvisit] at hr ha hm
    cases hr
    obtain ⟨tables, hb, ho⟩ := ofValid_of_visit c.conflicts hvisit
    have hfound : TellsFound ask (claimedTypes m.groups) (introspectedEvents memo) := by
      refine tellsFound_introspectedEvents [] ?_ hok ?_
      · simp [show memo.asked = _ from ha]
      · simp
    rw [make, planning_of_valid hf hv, ho, size_resolve, DispatchTables.size_decode hb,
      length_known hm hok]
    exact .planned hf hv (tellsConflicts_droppedEvents m.groups c.conflicts) hfound

private theorem trace_of_error (hf : c.fault? = none) (hv : m.isValid = true)
    {before after : List SchemaPath} {p : SchemaPath} {e : IntrospectionError}
    (hs : claimedTypes m.groups = before ++ p :: after) (hok : ∀ q ∈ before, ∃ k, ask q = .ok k)
    (he : ask p = .error e) : Trace m ask c (make m ask c).2 (make m ask c).1 := by
  have hn : before.Nodup := (List.nodup_append.mp (hs ▸ nodup_claimedTypes m.groups)).1
  obtain ⟨hr, ha⟩ := ArityFilter.visit_of_error after (ArityMemo.faithful_empty ask) hn
    (fun q _ => rfl) hok he
  cases hvisit : ArityFilter.visit ask (claimedTypes m.groups) {} with
  | mk memo result =>
    rw [← hs, hvisit] at hr ha
    cases hr
    obtain ⟨tables, -, ho⟩ := ofValid_of_visit c.conflicts hvisit
    have hfound : TellsFound ask before (introspectedEvents memo) := by
      refine tellsFound_introspectedEvents [p] ?_ hok ?_
      · simp [show memo.asked = _ from ha]
      · simp [he]
    rw [make, planning_of_valid hf hv, ho]
    exact .introspection hf hv (tellsConflicts_droppedEvents m.groups c.conflicts) hs hfound he

/-- What is logged while a plan is made is fixed by what comes of it. Nothing is logged where the
settings or the model are refused. Otherwise there is an event for each lost claim, as loud as the
settings say, then one for each claimed type that is found before the first that is not, and a plan
is summed up with one number of types for all that it counts. -/
theorem events_exact (m : Model) (ask : Introspector) (c : Config) (events : List Event) :
    Trace m ask c (make m ask c).2 events ↔ events = (make m ask c).1 := by
  have h : Trace m ask c (make m ask c).2 (make m ask c).1 := by
    cases hf : c.fault? with
    | some fault =>
      rw [make, planning_of_fault hf]
      exact .setting hf
    | none =>
      cases hv : m.isValid with
      | false =>
        rw [make, planning_of_invalid hf hv]
        exact .validation hf hv
      | true =>
        rcases forall_ok_or_first_error ask (claimedTypes m.groups) with
          hok | ⟨before, p, after, e, hs, hok, he⟩
        · exact trace_of_ok hf hv hok
        · exact trace_of_error hf hv hs hok he
  exact ⟨fun h' => h'.unique h, fun he => he ▸ h⟩

end Switchboard.Plan
