import Switchboard.Plan
import Switchboard.Proofs.Arity
import Switchboard.Proofs.Tables

/-! Planning. What comes of it and whom it asks is determined by the settings, the model and the
answers, and the ownership, the converter files and the tables of a plan tell one story. -/

namespace Switchboard

open Ownership

/-- The names of the types in a converter file, the mapped ones first. -/
def ConverterFile.names (f : ConverterFile) : List String :=
  f.mapped.map (fun t => t.path.text) ++ f.fieldless.map SchemaPath.text

namespace Plan

/-- The claimed types in the order of their first claims. -/
def claimedTypes (groups : List Group) : List SchemaPath := (groups.flatMap Group.claims).eraseDups

theorem mem_claimedTypes (groups : List Group) (p : SchemaPath) :
    p ∈ claimedTypes groups ↔ ∃ g, claimant? groups p.text = some g := by
  rw [claimedTypes, List.mem_eraseDups, List.mem_flatMap, ← Option.isSome_iff_exists,
    Option.isSome_iff_ne_none, ne_eq, claimant?_eq_none_iff]
  simp [Group.claims_text_iff]

theorem eraseDups_of_nodup {ps : List SchemaPath} (h : ps.Nodup) : ps.eraseDups = ps := by
  induction ps with
  | nil => rfl
  | cons p rest ih =>
    obtain ⟨hp, hn⟩ := List.nodup_cons.mp h
    have hf : (rest.filter fun q => !q == p) = rest := by
      apply List.filter_eq_self.mpr
      intro q hq
      have hne : q ≠ p := fun he => hp (he ▸ hq)
      simp [hne]
    rw [List.eraseDups_cons, hf, ih hn]

/-- Group by group, the owned types are all claimed types in the order of their first claims. -/
theorem flatMap_shares (groups : List Group) :
    ((shares groups (resolve groups)).flatMap fun share => share.2.2.eraseDups) =
      claimedTypes groups := by
  have ho : (groups.zipIdx.map fun x => (resolve groups).ownedBy x.2) = (resolve groups).owned := by
    have hl : (resolve groups).owned.length = groups.length := groupCount_resolve groups
    apply List.ext_getElem (by simp [hl])
    intro i h1 h2
    simp [ownedBy, List.getElem?_eq_getElem h2]
  have hs : ((shares groups (resolve groups)).flatMap fun share => share.2.2.eraseDups) =
      (groups.zipIdx.map fun x => (resolve groups).ownedBy x.2).flatten := by
    rw [shares, List.flatMap_map, List.flatMap_def]
    congr 1
    apply List.map_congr_left
    intro x _
    exact eraseDups_of_nodup (nodup_ownedBy_resolve groups x.2)
  rw [hs, ho, flatten_owned_resolve, claimedTypes]

/-- The converter files of a plan as the answers make them. -/
def filesOf (groups : List Group) (ask : Introspector) : List ConverterFile :=
  (shares groups (resolve groups)).map fun (i, g, owned) => ArityFilter.fileOf ask i g owned

/-- Types are asked for in order until one has no constructor. -/
theorem forall_ok_or_first_error (ask : Introspector) (ps : List SchemaPath) :
    (∀ p ∈ ps, ∃ c, ask p = .ok c) ∨
      ∃ before p after e, ps = before ++ p :: after ∧ (∀ q ∈ before, ∃ c, ask q = .ok c) ∧
        ask p = .error e := by
  induction ps with
  | nil => exact .inl fun p hp => absurd hp List.not_mem_nil
  | cons p rest ih =>
    cases ha : ask p with
    | error e => exact .inr ⟨[], p, rest, e, rfl, fun q hq => absurd hq List.not_mem_nil, ha⟩
    | ok c =>
      rcases ih with h | ⟨before, q, after, e, rfl, hb, he⟩
      · exact .inl (List.forall_mem_cons.mpr ⟨⟨c, ha⟩, h⟩)
      · exact .inr ⟨p :: before, q, after, e, rfl, List.forall_mem_cons.mpr ⟨⟨c, ha⟩, hb⟩, he⟩

variable {m : Model} {ask : Introspector}

/-- If every claimed type has a constructor, each is asked for once and there is a plan. -/
theorem ofValid_of_ok (level : ConflictLevel)
    (hok : ∀ p ∈ claimedTypes m.groups, ∃ c, ask p = .ok c) :
    (ofValid m ask level).asked = (claimedTypes m.groups).map (fun p => (p, ask p)) ∧
      ∃ tables, DispatchTables.build (resolve m.groups) = .ok tables ∧
        (ofValid m ask level).outcome =
          .ok ⟨m.groups, resolve m.groups, filesOf m.groups ask, tables⟩ := by
  obtain ⟨tables, hb, _⟩ := DispatchTables.build_resolve m.groups
  obtain ⟨hv, ha⟩ := ArityFilter.visit_of_ok {} (eraseDups_nodup _) (fun p _ => rfl) hok
  have hf := ArityFilter.files_eq (ArityMemo.faithful_empty ask)
    (shares m.groups (resolve m.groups))
  rw [flatMap_shares, claimedTypes] at hf
  simp only [ofValid, hf, claimedTypes]
  cases hr : ArityFilter.visit ask (m.groups.flatMap Group.claims).eraseDups {} with
  | mk memo result =>
    rw [hr] at hv ha
    cases hv
    simp only [List.append_nil] at ha
    simp [hb, ha, filesOf]

/-- The first claimed type without a constructor ends it, with its error. -/
theorem ofValid_of_error (level : ConflictLevel) {before after : List SchemaPath} {p : SchemaPath}
    {e : IntrospectionError} (hs : claimedTypes m.groups = before ++ p :: after)
    (hok : ∀ q ∈ before, ∃ c, ask q = .ok c) (he : ask p = .error e) :
    (ofValid m ask level).asked = (before ++ [p]).map (fun q => (q, ask q)) ∧
      (ofValid m ask level).outcome = .error (.introspection e) := by
  have hn : before.Nodup := by
    have := eraseDups_nodup (m.groups.flatMap Group.claims)
    rw [← claimedTypes, hs] at this
    exact (List.nodup_append.mp this).1
  obtain ⟨hv, ha⟩ := ArityFilter.visit_of_error after (ArityMemo.faithful_empty ask) hn
    (fun q _ => rfl) hok he
  have hf := ArityFilter.files_eq (ArityMemo.faithful_empty ask)
    (shares m.groups (resolve m.groups))
  rw [flatMap_shares, hs] at hf
  simp only [ofValid, hf]
  cases hr : ArityFilter.visit ask (before ++ p :: after) {} with
  | mk memo result =>
    rw [hr] at hv ha
    cases hv
    simp only [List.append_nil] at ha
    simp [ha]

theorem planning_of_fault {c : Config} {fault : SettingFault} (hf : c.fault? = some fault) :
    planning m ask c = { outcome := .error (.setting fault) } := by
  simp [planning, hf]

theorem planning_of_invalid {c : Config} (hf : c.fault? = none) (hv : m.isValid = false) :
    planning m ask c = { outcome := .error (.validation m.errors) } := by
  simp [planning, hf, show m.errors.isEmpty = false from hv]

theorem planning_of_valid {c : Config} (hf : c.fault? = none) (hv : m.isValid = true) :
    planning m ask c = ofValid m ask c.conflicts := by
  simp [planning, hf, show m.errors.isEmpty = true from hv]

/-- What comes of planning, and whom it asks. Settings are judged first, then the model, and neither
needs an answer. Then each claimed type is asked for once, in the order of its first claim, until
one has no constructor. The tables can always be made. -/
theorem planning_determined (m : Model) (ask : Introspector) (c : Config) :
    let run := planning m ask c
    (∀ fault, run.outcome = .error (.setting fault) ↔ c.fault? = some fault) ∧
    (∀ errors, run.outcome = .error (.validation errors) ↔
      c.fault? = none ∧ m.errors = errors ∧ m.isValid = false) ∧
    ((c.fault? ≠ none ∨ m.isValid = false) → run.asked = []) ∧
    (c.fault? = none → m.isValid = true →
      ((∀ p ∈ claimedTypes m.groups, ∃ k, ask p = .ok k) →
        run.asked = (claimedTypes m.groups).map (fun p => (p, ask p)) ∧
          ∃ plan, run.outcome = .ok plan) ∧
      ∀ before p after e, claimedTypes m.groups = before ++ p :: after →
        (∀ q ∈ before, ∃ k, ask q = .ok k) → ask p = .error e →
        run.asked = (before ++ [p]).map (fun q => (q, ask q)) ∧
          run.outcome = .error (.introspection e)) ∧
    (∀ e, run.outcome ≠ .error (.table e)) ∧
    ∀ groups, ∃ tables, DispatchTables.build (resolve groups) = .ok tables := by
  have hbuild : ∀ groups, ∃ tables, DispatchTables.build (resolve groups) = .ok tables :=
    fun groups => (DispatchTables.build_resolve groups).imp fun _ h => h.1
  dsimp only
  cases hf : c.fault? with
  | some fault => refine ⟨?_, ?_, ?_, ?_, ?_, hbuild⟩ <;> simp [planning_of_fault hf]
  | none =>
    cases hv : m.isValid with
    | false => refine ⟨?_, ?_, ?_, ?_, ?_, hbuild⟩ <;> simp [planning_of_invalid hf hv]
    | true =>
      rw [planning_of_valid hf hv]
      have hend : (∃ plan, (ofValid m ask c.conflicts).outcome = .ok plan) ∨
          ∃ e, (ofValid m ask c.conflicts).outcome = .error (.introspection e) := by
        rcases forall_ok_or_first_error ask (claimedTypes m.groups) with
          hok | ⟨before, p, after, e, hs, hb, he⟩
        · obtain ⟨_, tables, _, ho⟩ := ofValid_of_ok c.conflicts hok
          exact .inl ⟨_, ho⟩
        · exact .inr ⟨e, (ofValid_of_error c.conflicts hs hb he).2⟩
      refine ⟨?_, ?_, by simp, ?_, ?_, hbuild⟩
      · rcases hend with ⟨plan, ho⟩ | ⟨e, ho⟩ <;> simp [ho]
      · rcases hend with ⟨plan, ho⟩ | ⟨e, ho⟩ <;> simp [ho]
      · intro _ _
        refine ⟨fun hok => ?_, fun before p after e hs hb he => ?_⟩
        · obtain ⟨ha, tables, _, ho⟩ := ofValid_of_ok c.conflicts hok
          exact ⟨ha, _, ho⟩
        · exact ofValid_of_error c.conflicts hs hb he
      · rcases hend with ⟨plan, ho⟩ | ⟨e, ho⟩ <;> simp [ho]

/-! Plans that come of it -/

/-- A plan has the groups of its model, what they own, the files that the answers make and tables
made from who owns what, and every claimed type has a constructor. -/
theorem make_eq_ok {c : Config} {p : Plan} (h : (make m ask c).2 = .ok p) :
    (∀ q ∈ claimedTypes m.groups, ∃ k, ask q = .ok k) ∧
      ∃ tables, DispatchTables.build (resolve m.groups) = .ok tables ∧
        p = ⟨m.groups, resolve m.groups, filesOf m.groups ask, tables⟩ := by
  change (planning m ask c).outcome = .ok p at h
  cases hf : c.fault? with
  | some fault => simp [planning_of_fault hf] at h
  | none =>
    cases hv : m.isValid with
    | false => simp [planning_of_invalid hf hv] at h
    | true =>
      rw [planning_of_valid hf hv] at h
      rcases forall_ok_or_first_error ask (claimedTypes m.groups) with
        hok | ⟨before, q, after, e, hs, hb, he⟩
      · obtain ⟨_, tables, hb, ho⟩ := ofValid_of_ok c.conflicts hok
        rw [ho] at h
        cases h
        exact ⟨hok, tables, hb, rfl⟩
      · rw [(ofValid_of_error c.conflicts hs hb he).2] at h
        cases h

/-- The tables of a plan have a case for each group that owns anything and route to the owner. -/
theorem exists_tables_of_make {c : Config} {p : Plan} (h : (make m ask c).2 = .ok p) :
    ∃ tables, p = ⟨m.groups, resolve m.groups, filesOf m.groups ask, tables⟩ ∧
      tables.decode.cases = DispatchTables.casesOf (resolve m.groups)
        (List.range m.groups.length) ∧
      tables.encode.cases = DispatchTables.casesOf (resolve m.groups)
        (List.range m.groups.length) ∧
      (∀ name, tables.decode.groupOf name = claimant? m.groups name) ∧
      ∀ name, tables.encode.groupOf name = claimant? m.groups name := by
  obtain ⟨_, tables, hb, hp⟩ := make_eq_ok h
  obtain ⟨tables', hb', hcases⟩ := DispatchTables.build_resolve m.groups
  rw [hb] at hb'
  cases hb'
  exact ⟨tables, hp, hcases⟩

/-- There is a plan if the names are in order and every claimed type has a constructor. -/
theorem exists_make_eq_ok {c : Config} (hf : c.fault? = none) (hv : m.isValid = true)
    (hok : ∀ q ∈ claimedTypes m.groups, (ask q).isOk) : ∃ p, (make m ask c).2 = .ok p := by
  have hok' : ∀ q ∈ claimedTypes m.groups, ∃ k, ask q = .ok k := by
    intro q hq
    have := hok q hq
    cases ha : ask q with
    | ok k => exact ⟨k, rfl⟩
    | error e => simp [ha, Except.isOk, Except.toBool] at this
  obtain ⟨_, tables, _, ho⟩ := ofValid_of_ok c.conflicts hok'
  refine ⟨⟨m.groups, resolve m.groups, filesOf m.groups ask, tables⟩, ?_⟩
  change (planning m ask c).outcome = _
  rw [planning_of_valid hf hv, ho]

theorem getElem?_filesOf (groups : List Group) (g : Nat) :
    (filesOf groups ask)[g]? =
      (groups[g]?).map fun group =>
        ArityFilter.fileOf ask g group ((resolve groups).ownedBy g) := by
  simp [filesOf, shares, List.getElem?_zipIdx, Function.comp_def]

/-- The names in the file of a group are those of the types that it owns. -/
theorem names_fileOf_perm {groups : List Group}
    (hok : ∀ q ∈ claimedTypes groups, ∃ k, ask q = .ok k) (g : Nat) (group : Group) :
    (ArityFilter.fileOf ask g group ((resolve groups).ownedBy g)).names.Perm
      (((resolve groups).ownedBy g).map SchemaPath.text) := by
  have ho : ∀ q ∈ (resolve groups).ownedBy g, ∃ k, ask q = .ok k := by
    intro q hq
    exact hok q ((mem_claimedTypes groups q).mpr ⟨g, (mem_ownedBy_resolve groups g q).mp hq⟩)
  have hp := (ArityFilter.mapped_append_fieldless_perm ho).map SchemaPath.text
  rw [ArityFilter.fileOf, eraseDups_of_nodup (nodup_ownedBy_resolve groups g)]
  simpa [ConverterFile.names, Function.comp_def] using hp

theorem mem_ownedBy_map_text (groups : List Group) (g : Nat) (name : String) :
    name ∈ ((resolve groups).ownedBy g).map SchemaPath.text ↔ IsClaimant groups name g := by
  rw [← claimant?_eq_some_iff, List.mem_map]
  constructor
  · rintro ⟨q, hq, rfl⟩
    exact (mem_ownedBy_resolve groups g q).mp hq
  · intro hc
    exact ⟨⟨name⟩, (mem_ownedBy_resolve groups g ⟨name⟩).mpr hc, rfl⟩

private theorem ownedBy_ne_nil_iff (groups : List Group) (g : Nat) :
    (resolve groups).ownedBy g ≠ [] ↔ ∃ name, IsClaimant groups name g := by
  constructor
  · intro hne
    obtain ⟨q, hq⟩ := List.exists_mem_of_ne_nil _ hne
    exact ⟨q.text, (mem_ownedBy_map_text groups g q.text).mp (List.mem_map_of_mem hq)⟩
  · rintro ⟨name, hc⟩ hn
    have hm := (mem_ownedBy_map_text groups g name).mpr hc
    simp [hn] at hm

theorem mem_names_filesOf_iff {groups : List Group}
    (hok : ∀ q ∈ claimedTypes groups, ∃ k, ask q = .ok k) {j : Nat} {file : ConverterFile}
    (hj : (filesOf groups ask)[j]? = some file) (name : String) :
    name ∈ file.names ↔ IsClaimant groups name j := by
  rw [getElem?_filesOf] at hj
  obtain ⟨group, _, rfl⟩ := Option.map_eq_some_iff.mp hj
  rw [(names_fileOf_perm hok j group).mem_iff, mem_ownedBy_map_text]

/-- A claimed type is once in the file of its claimant, and mapped there if it has any parameter. -/
theorem filed_of_claimant {groups : List Group}
    (hok : ∀ q ∈ claimedTypes groups, ∃ k, ask q = .ok k) {name : String} {g : Nat}
    (hc : IsClaimant groups name g) :
    ∃ file k, (filesOf groups ask)[g]? = some file ∧ ask ⟨name⟩ = .ok k ∧
      file.names.count name = 1 ∧ (∀ t ∈ file.mapped, t.path.text = name → t.constructor = k) ∧
      ((∃ t ∈ file.mapped, t.path.text = name) ↔ 1 ≤ k.arity) := by
  have ho := (claimant?_eq_some_iff groups name g).mpr hc
  obtain ⟨k, hk⟩ := hok ⟨name⟩ ((mem_claimedTypes groups ⟨name⟩).mpr ⟨g, ho⟩)
  obtain ⟨⟨group, hg, _⟩, _⟩ := id hc
  have hf : (filesOf groups ask)[g]? =
      some (ArityFilter.fileOf ask g group ((resolve groups).ownedBy g)) := by
    rw [getElem?_filesOf, hg, Option.map_some]
  refine ⟨_, k, hf, hk, ?_, ?_, ?_⟩
  · have hn : (ArityFilter.fileOf ask g group ((resolve groups).ownedBy g)).names.Nodup := by
      rw [(names_fileOf_perm hok g group).nodup_iff]
      exact (nodup_ownedBy_resolve groups g).map fun _ _ he => SchemaPath.text_inj.mp he
    exact List.count_eq_one_of_mem hn ((mem_names_filesOf_iff hok hf name).mpr hc)
  · rintro ⟨q, d⟩ ht rfl
    have ha := ((ArityFilter.mem_mappedOf q d _).mp ht).2.1
    exact Except.ok.inj (ha.symm.trans hk)
  · constructor
    · rintro ⟨⟨q, d⟩, ht, rfl⟩
      obtain ⟨_, ha, hd⟩ := (ArityFilter.mem_mappedOf q d _).mp ht
      rw [← Except.ok.inj (ha.symm.trans hk)]
      exact of_decide_eq_true hd
    · intro harity
      have hm := (mem_ownedBy_resolve groups g ⟨name⟩).mpr ho
      exact ⟨⟨⟨name⟩, k⟩, (ArityFilter.mem_mappedOf _ _ _).mpr
        ⟨List.mem_eraseDups.mpr hm, hk, decide_eq_true harity⟩, rfl⟩

/-- The groups with a case are those that own anything. -/
theorem mem_groups_casesOf (groups : List Group) (g : Nat) :
    g ∈ (DispatchTables.casesOf (resolve groups) (List.range groups.length)).map
        DispatchCase.group ↔ (resolve groups).ownedBy g ≠ [] := by
  simp only [DispatchTables.casesOf, List.map_map, Function.comp_def, List.map_id', List.mem_filter,
    List.mem_range, Bool.not_eq_true', List.isEmpty_eq_false_iff, and_iff_right_iff_imp]
  intro hne
  obtain ⟨name, hc⟩ := (ownedBy_ne_nil_iff groups g).mp hne
  exact claimant?_lt ((claimant?_eq_some_iff groups name g).mpr hc)

/-- The names in cases are those that anyone claims. -/
theorem mem_names_casesOf (groups : List Group) (name : String) :
    name ∈ (DispatchTables.casesOf (resolve groups) (List.range groups.length)).flatMap
        DispatchCase.types ↔ ∃ g, IsClaimant groups name g := by
  simp only [DispatchTables.casesOf, List.flatMap_map, List.mem_flatMap, List.mem_filter,
    List.mem_range]
  constructor
  · rintro ⟨g, _, hm⟩
    exact ⟨g, (mem_ownedBy_map_text groups g name).mp hm⟩
  · rintro ⟨g, hc⟩
    have hg := claimant?_lt ((claimant?_eq_some_iff groups name g).mpr hc)
    have hne := (ownedBy_ne_nil_iff groups g).mpr ⟨name, hc⟩
    exact ⟨g, ⟨hg, by simpa using hne⟩, (mem_ownedBy_map_text groups g name).mpr hc⟩

private theorem not_claimant_of_unclaimed {groups : List Group} {name : String}
    (h : ∀ group ∈ groups, ¬ group.Claims name) (g : Nat) : ¬ IsClaimant groups name g := by
  rintro ⟨⟨group, hg, hc⟩, _⟩
  exact h group (List.mem_of_getElem? hg) hc

/-- That the ownership, the files and the tables of a plan describe one assignment of types to
groups, that of a type to its claimant. -/
structure Coherent (groups : List Group) (ask : Introspector) (p : Plan) : Prop where
  decoded : ∀ name g, p.tables.decode.groupOf name = some g ↔ IsClaimant groups name g
  encoded : ∀ name g, p.tables.encode.groupOf name = some g ↔ IsClaimant groups name g
  owned : ∀ name g, p.ownership.ownerOf ⟨name⟩ = some g ↔ IsClaimant groups name g
  /-- A claimed type is once in the file of its claimant and in no other, mapped if it has any
  parameter. -/
  filed : ∀ name g, IsClaimant groups name g → ∃ file k, p.files[g]? = some file ∧
    ask ⟨name⟩ = .ok k ∧ file.names.count name = 1 ∧
    (∀ j other, p.files[j]? = some other → name ∈ other.names → j = g) ∧
    (∀ t ∈ file.mapped, t.path.text = name → t.constructor = k) ∧
    ((∃ t ∈ file.mapped, t.path.text = name) ↔ 1 ≤ k.arity)
  unclaimed : ∀ name, (∀ group ∈ groups, ¬ group.Claims name) →
    p.tables.decode.groupOf name = none ∧ p.tables.encode.groupOf name = none ∧
    name ∉ p.tables.decode.keys ∧ name ∉ p.tables.encode.keys ∧
    ∀ file ∈ p.files, name ∉ file.names
  /-- There is one file for each group, in order. -/
  files_length : p.files.length = groups.length
  files_group : ∀ (i : Nat) (file : ConverterFile), p.files[i]? = some file → file.group = i
  /-- A group has a case if it owns anything. -/
  decode_case : ∀ g, g ∈ p.tables.decode.groups ↔ p.ownership.ownedBy g ≠ []
  encode_case : ∀ g, g ∈ p.tables.encode.groups ↔ p.ownership.ownedBy g ≠ []

/-- Every plan that is made is coherent, for whatever claims that overlap, repeat or are missing. -/
theorem make_coherent {c : Config} {p : Plan} (h : (make m ask c).2 = .ok p) :
    p.Coherent m.groups ask := by
  obtain ⟨hok, tables, hb, rfl⟩ := make_eq_ok h
  obtain ⟨tables', hb', hcd, hce, hrd, hre⟩ := DispatchTables.build_resolve m.groups
  rw [hb] at hb'
  cases hb'
  constructor
  case decoded =>
    intro name g
    rw [hrd, claimant?_eq_some_iff]
  case encoded =>
    intro name g
    rw [hre, claimant?_eq_some_iff]
  case owned =>
    intro name g
    rw [ownerOf, get?_owners_resolve, claimant?_eq_some_iff]
  case filed =>
    intro name g hc
    obtain ⟨file, k, hf, hk, hn, ht, hm⟩ := filed_of_claimant hok hc
    refine ⟨file, k, hf, hk, hn, ?_, ht, hm⟩
    intro j other hj ho
    have hi := (mem_names_filesOf_iff hok hj name).mp ho
    exact hi.unique hc
  case unclaimed =>
    intro name hu
    have hn : ∀ g, ¬ IsClaimant m.groups name g := not_claimant_of_unclaimed hu
    have hc : claimant? m.groups name = none := (claimant?_eq_none_iff m.groups name).mpr hu
    have hk : ¬ ∃ g, IsClaimant m.groups name g := fun ⟨g, hg⟩ => hn g hg
    refine ⟨by rw [hrd, hc], by rw [hre, hc], ?_, ?_, ?_⟩
    · rwa [DispatchTable.keys, hcd, mem_names_casesOf]
    · rwa [DispatchTable.keys, hce, mem_names_casesOf]
    · intro file hm ho
      obtain ⟨j, hj⟩ := List.mem_iff_getElem?.mp hm
      exact hn j ((mem_names_filesOf_iff hok hj name).mp ho)
  case files_length => simp [filesOf, shares]
  case files_group =>
    intro i file hi
    rw [getElem?_filesOf] at hi
    obtain ⟨group, _, rfl⟩ := Option.map_eq_some_iff.mp hi
    rfl
  case decode_case =>
    intro g
    rw [DispatchTable.groups, hcd]
    exact mem_groups_casesOf m.groups g
  case encode_case =>
    intro g
    rw [DispatchTable.groups, hce]
    exact mem_groups_casesOf m.groups g

/-- A model with a claim that comes again in its group, claims that come too late, a type without
parameters and a group that owns nothing. -/
def overlapping : Model where
  groups := [⟨"a", none, [⟨"X"⟩, ⟨"W"⟩, ⟨"X"⟩]⟩, ⟨"b", none, [⟨"X"⟩, ⟨"Y"⟩]⟩, ⟨"c", none, [⟨"W"⟩]⟩]
  types := [("W", .unit), ("X", .named ["x"]), ("Y", .tuple 2)]

theorem make_coherent_overlapping :
    ∃ p, (make overlapping overlapping.types.introspector {}).2 = .ok p ∧
      p.Coherent overlapping.groups overlapping.types.introspector := by
  have hm : ∃ p, (make overlapping overlapping.types.introspector {}).2 = .ok p :=
    exists_make_eq_ok (by decide +kernel) (by decide +kernel) (by decide +kernel)
  obtain ⟨p, hp⟩ := hm
  exact ⟨p, hp, make_coherent hp⟩

end Plan

end Switchboard
