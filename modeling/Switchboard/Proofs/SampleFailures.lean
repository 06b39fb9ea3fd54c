import Switchboard.Proofs.SampleRoundTrip

/-! What goes wrong when objects of the sample schema are made from records or written as them. Only
the name, the declared fields and the type of the object have a say in it. -/

namespace Switchboard

namespace Sample

/-! ## Faults -/

/-- Why a value does not convert to the type of a field, if it does not. -/
def Field.fault? (field : Field) (j : Json) : Option Mismatch :=
  match field.type.reader.ofValue j with
  | .ok _ => none
  | .error reason => some reason

private theorem Field.fault?_of_ok {field : Field} {j : Json} {value : field.type.Value}
    (h : field.type.reader.ofValue j = .ok value) : field.fault? j = none := by
  rw [fault?, h]

private theorem Field.fault?_of_error {field : Field} {j : Json} {reason : Mismatch}
    (h : field.type.reader.ofValue j = .error reason) : field.fault? j = some reason := by
  rw [fault?, h]

/-- Whether a field of a record is the first of some fields whose value does not convert, for a
reason. -/
def IsFirstFault (fields : List Field) (f : Fields) (name : String) (reason : Mismatch) : Prop :=
  ∃ before field after, fields = before ++ field :: after ∧
    (∀ g ∈ before, g.fault? (f.value g.key) = none) ∧
      field.key = name ∧ field.fault? (f.value name) = some reason

/-- That some fields decide what comes of reading a record: an object if all of their values
convert, and otherwise an error that names the first of them that does not. -/
structure Decides {β : Type} (fields : List Field) (read : Fields → Except ConversionError β) :
    Prop where
  accepts : ∀ f, (∃ b, read f = .ok b) ↔ ∀ field ∈ fields, field.fault? (f.value field.key) = none
  refuses : ∀ f e, read f = .error e ↔
    ∃ name reason, IsFirstFault fields f name reason ∧ e = .field f.type name reason
  agrees : ∀ f g : Fields, f.type = g.type →
    (∀ field ∈ fields, f.value field.key = g.value field.key) → read f = read g

private theorem isFirstFault_nil {f : Fields} {name : String} {reason : Mismatch} :
    ¬ IsFirstFault [] f name reason := by
  rintro ⟨before, field, after, hs, -⟩
  cases before <;> cases hs

private theorem isFirstFault_cons {field : Field} {fields : List Field} {f : Fields} {name : String}
    {reason : Mismatch} :
    IsFirstFault (field :: fields) f name reason ↔
      field.key = name ∧ field.fault? (f.value name) = some reason ∨
        field.fault? (f.value field.key) = none ∧ IsFirstFault fields f name reason := by
  constructor
  · rintro ⟨before, field', after, hs, hb, hn, hf⟩
    cases before with
    | nil =>
      cases hs
      exact .inl ⟨hn, hf⟩
    | cons g before =>
      cases hs
      obtain ⟨hg, hb⟩ := List.forall_mem_cons.mp hb
      exact .inr ⟨hg, before, field', after, rfl, hb, hn, hf⟩
  · rintro (⟨hn, hf⟩ | ⟨hg, before, field', after, rfl, hb, hn, hf⟩)
    · exact ⟨[], field, fields, rfl, by simp, hn, hf⟩
    · exact ⟨field :: before, field', after, rfl, List.forall_mem_cons.mpr ⟨hg, hb⟩, hn, hf⟩

/-- Only the values of the fields themselves have a say in which is the first fault. -/
theorem isFirstFault_congr {fields : List Field} {f g : Fields}
    (h : ∀ field ∈ fields, f.value field.key = g.value field.key) {name : String}
    {reason : Mismatch} :
    IsFirstFault fields f name reason ↔ IsFirstFault fields g name reason := by
  induction fields with
  | nil => exact iff_of_false isFirstFault_nil isFirstFault_nil
  | cons field fields ih =>
    obtain ⟨hfield, hrest⟩ := List.forall_mem_cons.mp h
    rw [isFirstFault_cons, isFirstFault_cons, ih hrest, hfield]
    refine or_congr_left (and_congr_right fun hn => ?_)
    rw [← hn, hfield]

namespace Decides

variable {α β : Type} {b : β} {fields : List Field}

private theorem done : Decides [] fun _ => (.ok b : Except ConversionError β) where
  accepts f := iff_of_true ⟨b, rfl⟩ (by simp)
  refuses f e := iff_of_false nofun fun ⟨_, _, h, _⟩ => isFirstFault_nil h
  agrees f g _ _ := rfl

private theorem map {γ : Type} {read : Fields → Except ConversionError β} (h : Decides fields read)
    (g : β → γ) : Decides fields fun f => (read f).map g where
  accepts f := by
    rw [← h.accepts f]
    cases read f <;> simp [Except.map]
  refuses f e := by
    rw [← h.refuses f e]
    cases read f <;> simp [Except.map]
  agrees f f' ht hv := congrArg (Except.map g) (h.agrees f f' ht hv)

/-- A field that is taken is the first to decide. -/
private theorem andThen {taken : Field}
    {next : taken.type.Value → Fields → Except ConversionError β}
    (hk : taken.key ∉ fields.map Field.key) (hn : ∀ a, Decides fields (next a)) :
    Decides (taken :: fields) fun f => f.andThen taken.type.reader taken.key next := by
  -- what is taken from a record is no longer in it, which the fields after it do not notice
  have hrest (f : Fields) : ∀ field ∈ fields,
      Fields.value { f with record := SortedMap.erase taken.key f.record } field.key =
        f.value field.key := by
    intro field hf
    have hne : field.key ≠ taken.key := fun he => hk (he ▸ List.mem_map_of_mem hf)
    rw [Fields.value, SortedMap.get?_erase_of_ne hne]
    rfl
  refine ⟨fun f => ?_, fun f e => ?_, fun f g ht hv => ?_⟩
  · rw [List.forall_mem_cons]
    simp only [Fields.andThen, Fields.take]
    cases hr : taken.type.reader.ofValue (f.value taken.key) with
    | error reason => simp [Field.fault?_of_error hr]
    | ok a =>
      simp only [Field.fault?_of_ok hr, true_and, (hn a).accepts]
      exact forall₂_congr fun field hf => by rw [hrest f field hf]
  · simp only [Fields.andThen, Fields.take, isFirstFault_cons]
    cases hr : taken.type.reader.ofValue (f.value taken.key) with
    | error reason =>
      have hfault := Field.fault?_of_error hr
      simp only [hfault, reduceCtorEq, false_and, or_false, Except.error.injEq]
      constructor
      · rintro rfl
        exact ⟨taken.key, reason, ⟨rfl, hfault⟩, rfl⟩
      · rintro ⟨name, reason', ⟨rfl, hf⟩, rfl⟩
        cases hfault.symm.trans hf
        rfl
    | ok a =>
      have hfault := Field.fault?_of_ok hr
      simp only [hfault, true_and, (hn a).refuses, isFirstFault_congr (hrest f)]
      refine exists₂_congr fun name reason => and_congr_left fun _ => ?_
      refine (or_iff_right ?_).symm
      rintro ⟨rfl, hf⟩
      cases hfault.symm.trans hf
  · obtain ⟨hfield, hv⟩ := List.forall_mem_cons.mp hv
    have htaken : f.value taken.key = g.value taken.key := hfield
    simp only [Fields.andThen, Fields.take, htaken, ht]
    cases taken.type.reader.ofValue (g.value taken.key) with
    | error reason => rfl
    | ok a =>
      refine (hn a).agrees _ _ rfl fun field hf => ?_
      rw [hrest g field hf, ← hv field hf, ← hrest f field hf]
      rfl

end Decides

/-- The fields of a struct decide what comes of taking their values. -/
private theorem decides_takeValues {fields : List Field} (hn : (fields.map Field.key).Nodup) :
    Decides fields (takeValues fields) := by
  induction fields with
  | nil => exact .done
  | cons field rest ih =>
    obtain ⟨hk, hn⟩ := List.nodup_cons.mp hn
    exact .andThen hk fun value => (ih hn).map _

/-! ## Routes -/

/-- Whether a type is routed: some group claims it. -/
def Routed (type : String) : Prop := ∃ g ∈ groups, g.Claims type

private theorem routed_iff {type : String} : Routed type ↔ Dispatcher.memberOf? type ≠ none := by
  have hn := Ownership.claimant?_eq_none_iff groups type
  rw [claimant?_groups, Option.map_eq_none_iff] at hn
  rw [ne_eq, hn, Routed]
  simp

private theorem memberOf?_of_not_routed {type : String} (h : ¬Routed type) :
    Dispatcher.memberOf? type = none := by
  rwa [routed_iff, ne_eq, not_not] at h

/-- A routed type is a struct of the group that it is routed to. -/
private theorem exists_struct_of_routed {type : String} (h : Routed type) :
    ∃ m : Member, ∃ s ∈ m.structs, s.path = type := by
  obtain ⟨m, hm⟩ := Option.ne_none_iff_exists'.mp (routed_iff.mp h)
  exact ⟨m, (mem_structs_iff m type).mpr hm⟩

private theorem routed_path {m : Member} {s : Struct} (hs : s ∈ m.structs) : Routed s.path := by
  rw [routed_iff, memberOf?_path hs]
  exact nofun

section Dispatcher

variable {d : Dispatcher}

private theorem decode_of_not_routed (h : d.Steady) {type : String} (hr : ¬Routed type)
    (r : Record) : (d.decode type r).1 = .error (.unmatched type) := by
  rw [(Dispatcher.decode_steady h type r).1, memberOf?_of_not_routed hr]

private theorem encodeAs_of_not_routed (h : d.Steady) (o : Object) {type : String}
    (hr : ¬Routed type) : (d.encodeAs o type).1 = .error (.unmatched type) := by
  rw [(Dispatcher.encodeAs_steady h o type).1, memberOf?_of_not_routed hr]

variable {m : Member} {s : Struct} (hs : s ∈ m.structs)

include hs

/-- What is made of a record under the name of a struct is decided by the fields of the struct. -/
private theorem decides_decode (h : d.Steady) :
    ∃ read : Fields → Except ConversionError Object, Decides s.fields read ∧
      ∀ r, (d.decode s.path r).1 = read ⟨s.path, r⟩ := by
  refine ⟨_, (decides_takeValues s.distinct).map s.make, fun r => ?_⟩
  rw [(Dispatcher.decode_steady h s.path r).1, memberOf?_path hs]
  exact decode_path hs r

/-- An object of a struct is written under its own name. -/
private theorem encodeAs_own (h : d.Steady) {o : Object} {values : Values s.fields}
    (hv : s.values? o = some values) : ∃ r, (d.encodeAs o o.typeName).1 = .ok r := by
  obtain ⟨hn, r, he, -⟩ := restores hs hv
  refine ⟨r, ?_⟩
  rw [hn, (Dispatcher.encodeAs_steady h o s.path).1, memberOf?_path hs]
  exact he

/-- An object is not written under the name of another type. -/
private theorem encodeAs_other (h : d.Steady) {o : Object} (hne : s.path ≠ o.typeName) :
    (d.encodeAs o s.path).1 = .error (.typeMismatch s.path o.typeName) := by
  have hv : s.values? o = none := by
    by_contra hv
    obtain ⟨values, hv⟩ := Option.ne_none_iff_exists'.mp hv
    exact hne (restores hs hv).1.symm
  rw [(Dispatcher.encodeAs_steady h o s.path).1, memberOf?_path hs]
  exact (encodeAs_path hs o).trans (by rw [hv])

end Dispatcher

/-- What goes wrong, at any time, with the converters and the dispatcher that are generated for the
sample schema. A record is refused as unmatched under just the names that are not routed. Under a
routed name it is refused if the value of a declared field does not convert, for the first such
field, and nothing else in the record matters. An object is written under its own name if that is
routed, and as unmatched or mismatched under others. -/
theorem failures_exact : ∃ i p, Generates i p ∧ ∀ {σ : Type} (uses : List (Use σ)),
    let d := (Session.run uses {}).2.dispatcher
    (∀ type r n, (d.decode type r).1 = .error (.unmatched n) ↔ ¬Routed type ∧ n = type) ∧
    (∀ type, Routed type → ∃ s ∈ structs, s.path = type ∧
      i.sources.introspector ⟨type⟩ = .ok s.constructor ∧
      s.fields.map Field.key = s.constructor.params ∧
      (∀ r e, (d.decode type r).1 = .error e ↔ ∃ name reason,
        IsFirstFault s.fields ⟨type, r⟩ name reason ∧ e = .field type name reason) ∧
      (∀ r, (∃ o, (d.decode type r).1 = .ok o) ↔
        ∀ field ∈ s.fields, field.fault? (Fields.value ⟨type, r⟩ field.key) = none) ∧
      ∀ r r', (∀ key ∈ s.constructor.params,
          Fields.value ⟨type, r⟩ key = Fields.value ⟨type, r'⟩ key) →
        (d.decode type r).1 = (d.decode type r').1) ∧
    (∀ type c, Routed type → i.sources.introspector ⟨type⟩ = .ok c → c.hasFields = false →
      ∀ r, ∃ o, (d.decode type r).1 = .ok o) ∧
    ∀ o type, (∀ s, o = .stranger s → ¬Routed s) →
      (∀ n, (d.encodeAs o type).1 = .error (.unmatched n) ↔ ¬Routed type ∧ n = type) ∧
      (∀ n found, (d.encodeAs o type).1 = .error (.typeMismatch n found) ↔
        Routed type ∧ type ≠ o.typeName ∧ n = type ∧ found = o.typeName) ∧
      ((∃ r, (d.encodeAs o type).1 = .ok r) ↔ Routed type ∧ type = o.typeName) := by
  obtain ⟨i, p, hg⟩ := exists_generates
  refine ⟨i, p, hg, fun {σ} uses => ?_⟩
  intro d
  have hd : d.Steady := Session.run_steady Dispatcher.steady_start uses
  refine ⟨fun type r n => ?_, fun type hr => ?_, fun type c hr hc hf r => ?_, fun o type ho => ?_⟩
  · by_cases hr : Routed type
    · obtain ⟨m, s, hs, rfl⟩ := exists_struct_of_routed hr
      obtain ⟨read, hread, he⟩ := decides_decode hs hd
      rw [he, hread.refuses]
      exact iff_of_false (fun ⟨_, _, _, h⟩ => nomatch h) fun h => h.1 hr
    · simp [decode_of_not_routed hd hr, hr, eq_comm]
  · obtain ⟨m, s, hs, rfl⟩ := exists_struct_of_routed hr
    obtain ⟨read, hread, he⟩ := decides_decode hs hd
    refine ⟨s, mem_structs hs, rfl, hg.known s (mem_structs hs), s.params.symm, fun r e => ?_,
      fun r => ?_, fun r r' hv => ?_⟩
    · rw [he, hread.refuses]
    · rw [he, hread.accepts]
    · rw [he, he, hread.agrees ⟨s.path, r⟩ ⟨s.path, r'⟩ rfl]
      exact fun field hf => hv field.key (s.params ▸ List.mem_map_of_mem hf)
  · obtain ⟨m, s, hs, rfl⟩ := exists_struct_of_routed hr
    obtain ⟨read, hread, he⟩ := decides_decode hs hd
    cases (hg.known s (mem_structs hs)).symm.trans hc
    have hn : s.fields = [] := by
      have hlen := congrArg List.length s.params
      rw [List.length_map, Constructor.length_params] at hlen
      have ha : s.constructor.arity = 0 := by simpa [Constructor.hasFields] using hf
      exact List.length_eq_zero_iff.mp (hlen.symm.trans ha)
    rw [he, hread.accepts, hn]
    exact List.forall_mem_nil _
  · by_cases hr : Routed type
    · by_cases hn : type = o.typeName
      · have hown : ∀ s, o ≠ .stranger s := by
          rintro s rfl
          rw [hn] at hr
          exact ho s rfl hr
        obtain ⟨m, s, hs, values, hv⟩ := exists_struct hown
        obtain ⟨r, he⟩ := encodeAs_own hs hd hv
        simp [hn, he, hn ▸ hr]
      · obtain ⟨m, s, hs, rfl⟩ := exists_struct_of_routed hr
        simp [encodeAs_other hs hd hn, hr, hn, eq_comm]
    · simp [encodeAs_of_not_routed hd o hr, hr, eq_comm]

end Sample

end Switchboard
