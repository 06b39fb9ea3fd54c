import Mathlib.Algebra.Group.Nat.Defs
import Switchboard.Proofs.Accessors
import Switchboard.Proofs.Complaints
import Switchboard.Proofs.ConverterText
import Switchboard.Proofs.Spelling

/-! Acceptance. Names are checked when a model is validated and again when source text is made of
them, and both checks agree on every text, so converters can be made from every plan of a model
that is its own introspector. -/

namespace Switchboard

/-! ## The two checks of a name -/

namespace Emission

private theorem isOk_word_iff (what text : String) :
    (word what text).isOk = true ↔ Naming.identifierFault? text = none := by
  have hempty : Source.identifier? "" = none := by decide +kernel
  rw [word, Naming.identifierFault?]
  by_cases he : text.isEmpty = true
  · rw [if_pos he, String.isEmpty_iff.mp he, hempty]
    exact iff_of_false Bool.false_ne_true (Option.some_ne_none _)
  · rw [if_neg he]
    cases Source.identifier? text with
    | none => exact iff_of_false Bool.false_ne_true (Option.some_ne_none _)
    | some w => exact ⟨fun _ => rfl, fun _ => rfl⟩

private theorem isOk_path_iff (what text : String) :
    (path what text).isOk = true ↔ Naming.pathFault? text = none := by
  rw [path, Naming.pathFault?]
  cases Source.path? text with
  | none => exact iff_of_false Bool.false_ne_true (Option.some_ne_none _)
  | some ts => exact ⟨fun _ => rfl, fun _ => rfl⟩

theorem isOk_fieldMember_iff (name : String) :
    (fieldMember name).isOk = true ↔ Naming.fieldFault? name = none := by
  rw [fieldMember, Naming.fieldFault?]
  cases Source.field? name with
  | none => exact iff_of_false Bool.false_ne_true (Option.some_ne_none _)
  | some w => exact ⟨fun _ => rfl, fun _ => rfl⟩

end Emission

/-! ## Constructors from the table -/

/-- A type table answers with what it has for a type. -/
theorem TypeTable.mem_entries_of_introspector {table : TypeTable} {p : SchemaPath}
    {c : Constructor} (h : table.introspector p = .ok c) : (p, c) ∈ table.entries := by
  rw [introspector] at h
  split at h
  · next c' hc =>
    cases h
    exact List.mem_map.mpr ⟨(p.text, c), SortedMap.mem_of_get? hc, rfl⟩
  · cases h

namespace Emission

/-- Whether a constructor has only members that can be written: names of fields, and places that
have a number as one. -/
structure IsWritable (c : Constructor) : Prop where
  fields : ∀ names, c = .named names → ∀ name ∈ names, Naming.fieldFault? name = none
  places : ∀ arity, c = .tuple arity → arity ≤ 2 ^ 32 - 1

private theorem IsWritable.exists_members {c : Constructor} (h : IsWritable c) :
    ∃ found, members c = .ok found ∧ ∀ index, .place index ∈ found → index < 2 ^ 32 - 1 := by
  cases c with
  | named names =>
    obtain ⟨found, hf⟩ := Traversal.exists_mapM_eq_ok fun name hm =>
      (isOk_fieldMember_iff name).mpr (h.fields names rfl name hm)
    refine ⟨found, hf, fun index hm => ?_⟩
    obtain ⟨name, -, hn⟩ := Traversal.exists_of_mem_left (Traversal.mapM_eq_ok_iff.mp hf).flip hm
    obtain ⟨w, hw⟩ := fieldMember_eq_ok hn
    cases hw
  | tuple arity =>
    have hle := h.places arity rfl
    have hlt : arity < Nat.pow 2 32 := Nat.lt_of_le_sub_one (by decide) hle
    refine ⟨_, members_tuple_eq_ok.mpr ⟨hlt, rfl⟩, fun index hm => ?_⟩
    obtain ⟨i, hi, he⟩ := List.mem_map.mp hm
    cases he
    have := List.mem_range.mp hi
    omega
  | unit => exact ⟨[], rfl, nofun⟩

theorem isOk_mappedArm {m : MappedType} (hp : Naming.pathFault? m.path.text = none)
    (hc : IsWritable m.constructor) : (mappedArm m).isOk = true := by
  obtain ⟨found, hf, -⟩ := hc.exists_members
  obtain ⟨ts, ht⟩ := Traversal.exists_of_isOk ((isOk_path_iff "type path" m.path.text).mpr hp)
  rw [mappedArm, ht, hf]
  rfl

private theorem isOk_fieldlessArm {p : SchemaPath} (hp : Naming.pathFault? p.text = none) :
    (fieldlessArm p).isOk = true := by
  obtain ⟨ts, ht⟩ := Traversal.exists_of_isOk ((isOk_path_iff "type path" p.text).mpr hp)
  rw [fieldlessArm, ht]
  rfl

/-- A converter can be made if its names are accepted. -/
theorem exists_fieldMapper_eq_ok {f : ConverterFile}
    (hn : Naming.identifierFault? f.converter = none)
    (hm : ∀ t ∈ f.mapped, Naming.pathFault? t.path.text = none ∧ IsWritable t.constructor)
    (hl : ∀ p ∈ f.fieldless, Naming.pathFault? p.text = none) : ∃ ts, fieldMapper f = .ok ts := by
  obtain ⟨type, ht⟩ :=
    Traversal.exists_of_isOk ((isOk_word_iff "mapper type" f.converter).mpr hn)
  obtain ⟨mapped, hmapped⟩ := Traversal.exists_mapM_eq_ok fun t h =>
    isOk_mappedArm (hm t h).1 (hm t h).2
  obtain ⟨fieldless, hfieldless⟩ := Traversal.exists_mapM_eq_ok fun p h =>
    isOk_fieldlessArm (hl p h)
  rw [fieldMapper, converterArms, ht, hmapped, hfieldless]
  exact ⟨_, rfl⟩

/-! ## Plans -/

variable {m : Model} {c : Config} {p : Plan}

/-- The types in a file of a plan are claimed, so their paths are accepted, and their constructors
are in the table, so their fields are. -/
theorem accepted_of_mem_files (h : (Plan.make m m.types.introspector c).2 = .ok p)
    (ha : ∀ e ∈ m.types.entries, ∀ arity, e.2 = .tuple arity → arity ≤ 2 ^ 32 - 1)
    {f : ConverterFile} (hf : f ∈ p.files) :
    Naming.identifierFault? f.converter = none ∧
      (∀ t ∈ f.mapped, Naming.pathFault? t.path.text = none ∧ IsWritable t.constructor) ∧
      ∀ q ∈ f.fieldless, Naming.pathFault? q.text = none := by
  have hw := (Model.isValid_iff_wellNamed m).mp (Plan.accepted_of_make h).2
  obtain ⟨-, tables, -, rfl⟩ := Plan.make_eq_ok h
  obtain ⟨i, hi⟩ := List.mem_iff_getElem?.mp hf
  rw [Plan.getElem?_filesOf] at hi
  obtain ⟨g, hg, rfl⟩ := Option.map_eq_some_iff.mp hi
  have hgroup := List.mem_of_getElem? hg
  have howned (q : SchemaPath) (hq : q ∈ ((Ownership.resolve m.groups).ownedBy i).eraseDups) :
      Naming.pathFault? q.text = none := by
    have hc := (Ownership.mem_ownedBy_resolve m.groups i q).mp (List.mem_eraseDups.mp hq)
    obtain ⟨⟨owner, hj, hclaims⟩, -⟩ := (Ownership.claimant?_eq_some_iff m.groups q.text i).mp hc
    exact hw.claims owner (List.mem_of_getElem? hj) q ((Group.claims_text_iff owner q).mp hclaims)
  refine ⟨hw.identifiers g hgroup _ (by simp [ArityFilter.fileOf]), ?_, ?_⟩
  · rintro ⟨q, k⟩ ht
    obtain ⟨hq, hk, -⟩ := (ArityFilter.mem_mappedOf q k _).mp ht
    have he := TypeTable.mem_entries_of_introspector hk
    exact ⟨howned q hq, fun names hn => (hw.fields _ he names hn).1, ha _ he⟩
  · intro q hq
    exact howned q (List.mem_of_mem_filter hq)

/-- Converters can be made from every file of a plan that is made with the model's own types. The
names of converters, the paths that are claimed and the fields of the types were accepted when the
model was validated, and are accepted again, in the model and in every file. The places of tuples
have numbers. -/
theorem fieldMapper_accepts_files (h : (Plan.make m m.types.introspector c).2 = .ok p)
    (ha : ∀ e ∈ m.types.entries, ∀ arity, e.2 = .tuple arity → arity ≤ 2 ^ 32 - 1) :
    (∀ g ∈ m.groups, (word "mapper type" g.converterName).isOk ∧
      ∀ q ∈ g.claims, (path "type path" q.text).isOk) ∧
    (∀ e ∈ m.types.entries, ∀ names, e.2 = .named names →
      ∀ name ∈ names, (fieldMember name).isOk) ∧
    ∀ f ∈ p.files, (∃ ts, fieldMapper f = .ok ts) ∧
      (word "mapper type" f.converter).isOk ∧
      (∀ t ∈ f.mapped, (path "type path" t.path.text).isOk ∧
        ∃ found, members t.constructor = .ok found ∧
          ∀ index, .place index ∈ found → index < 2 ^ 32 - 1) ∧
      ∀ q ∈ f.fieldless, (path "type path" q.text).isOk := by
  have hw := (Model.isValid_iff_wellNamed m).mp (Plan.accepted_of_make h).2
  refine ⟨fun g hg => ⟨?_, fun q hq => ?_⟩, fun e he names hn name hname => ?_, fun f hf => ?_⟩
  · exact (isOk_word_iff _ _).mpr (hw.identifiers g hg _ (by simp))
  · exact (isOk_path_iff _ _).mpr (hw.claims g hg q hq)
  · exact (isOk_fieldMember_iff name).mpr ((hw.fields e he names hn).1 name hname)
  · obtain ⟨hn, hm, hl⟩ := accepted_of_mem_files h ha hf
    refine ⟨exists_fieldMapper_eq_ok hn hm hl, (isOk_word_iff _ _).mpr hn, fun t ht => ?_,
      fun q hq => (isOk_path_iff _ _).mpr (hl q hq)⟩
    exact ⟨(isOk_path_iff _ _).mpr (hm t ht).1, (hm t ht).2.exists_members⟩

/-- Fields that are keywords, raw or followed by a remark, and paths with blanks and remarks. -/
def peculiar : Model where
  groups := [⟨"a", none, [⟨"x :: Y"⟩, ⟨"T /* two */"⟩, ⟨"U"⟩]⟩]
  types := [("T /* two */", .tuple 2), ("U", .unit),
    ("x :: Y", .named ["type", "r#match", "y // why"])]

theorem fieldMapper_accepts_files_peculiar :
    ∃ p f ts, (Plan.make peculiar peculiar.types.introspector {}).2 = .ok p ∧
      p.files[0]? = some f ∧ f.mapped.length = 2 ∧ fieldMapper f = .ok ts := by
  obtain ⟨p, hp⟩ : ∃ p, (Plan.make peculiar peculiar.types.introspector {}).2 = .ok p :=
    Traversal.exists_of_isOk (by decide +kernel)
  have ha : ∀ e ∈ peculiar.types.entries, ∀ arity, e.2 = .tuple arity → arity ≤ 2 ^ 32 - 1 := by
    intro e he arity harity
    simp only [peculiar, TypeTable.entries, List.map_cons, List.map_nil, List.mem_cons,
      List.not_mem_nil, or_false] at he
    rcases he with rfl | rfl | rfl <;> cases harity
    decide
  have hf : p.files[0]? = some (ArityFilter.fileOf peculiar.types.introspector 0
      ⟨"a", none, [⟨"x :: Y"⟩, ⟨"T /* two */"⟩, ⟨"U"⟩]⟩
      ((Ownership.resolve peculiar.groups).ownedBy 0)) := by
    obtain ⟨-, tables, -, rfl⟩ := Plan.make_eq_ok hp
    exact Plan.getElem?_filesOf peculiar.groups 0
  obtain ⟨-, -, hfiles⟩ := fieldMapper_accepts_files hp ha
  obtain ⟨⟨ts, hts⟩, -⟩ := hfiles _ (List.mem_of_getElem? hf)
  exact ⟨p, _, ts, hp, hf, by decide +kernel, hts⟩

end Emission

end Switchboard
