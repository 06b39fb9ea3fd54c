import Switchboard.Proofs.Accessors
import Switchboard.Proofs.ConverterArms
import Switchboard.Proofs.Records

/-! The text of a converter. Its arms for a type take the same fields from a record as they put into
one, so what a converter has written it reads again. -/

namespace Switchboard.Emission

open Source (Token Word)
open Source.Outline

/-- What the text of a converter says. -/
structure ConverterText where
  type : Word
  conversions : Conversions

/-- Reads the text of a converter: one type and the functions by which it converts single
objects. -/
def ConverterText.of? (ts : List Token) : Option ConverterText := do
  let entries ← entries? ts
  let (type, _) ← only? (entries.filterMap Entry.struct?)
  let conversions ←
    (only? (entries.filterMap (Entry.implementation? objectTrait type))).bind conversions?
  return { type, conversions }

def ConverterText.ownFunctions : List Token :=
  mustUse ++ call "pub const fn new" [] ++ code "-> Self" ++ brace (code "Self")

/-- The items of a converter before the one by which it converts objects. -/
def ConverterText.frontParts (group : String) (type : Word) : List Part :=
  [(doc s!" Converter for the `{group}` group." ++ derive "Clone , Copy , Debug , Default" ++
      code "pub struct" ++ [.word type], .mark ';' .alone),
   (code "impl" ++ [.word type], .group .brace ConverterText.ownFunctions)]

/-- The text of a converter has the arms that it was made of, and one for all other names. -/
theorem of?_converter (group : String) (type : Word) {arms : List ConverterArm}
    (h : ∀ a ∈ arms, Balanced a.type) :
    ConverterText.of? (converter group type arms) = some ⟨type,
      arms.map ConverterArm.decodeArm ++ [⟨.wildcard, unmatched⟩],
      arms.map ConverterArm.encodeArm ++ [⟨.wildcard, unmatched⟩]⟩ := by
  obtain ⟨part, body, hpart, hisPart, hentry, hbody⟩ :=
    exists_objectPart "unused_variables , unused_mut , clippy :: match_single_binding" type
      (arms.flatMap ConverterArm.decode) (arms.flatMap ConverterArm.encode)
  have hj : converter group type arms = joined (ConverterText.frontParts group type ++ [part]) := by
    have hend : code ";" = [.mark ';' .alone] := rfl
    rw [converter, hpart, hend, brace]
    simp only [ConverterText.frontParts, ConverterText.ownFunctions, joined_cons, joined_nil,
      List.append_assoc, List.cons_append, List.nil_append]
  have hentries : entries? (converter group type arms) = some [.struct type [],
      .methods type ConverterText.ownFunctions,
      .implementation (code ":: typemux :: core :: ObjectMapper") type body] := by
    rw [hj]
    exact bind_parts?_joined (.cons ⟨⟨fun _ _ => rfl, rfl⟩, rfl⟩
      (.cons ⟨⟨fun _ _ => rfl, rfl⟩, rfl⟩ (.cons ⟨hisPart, hentry⟩ .nil)))
  have hdecode : matchOn? "type_name" (code "match type_name" ++
      brace (arms.flatMap ConverterArm.decode ++ unmatchedArm)) =
        some (arms.map ConverterArm.decodeArm ++ [⟨.wildcard, unmatched⟩]) :=
    matchOn?_flatMap fun a _ => a.exists_decodePart
  have hencode : matchOn? "type_name" (code "match type_name" ++
      brace (arms.flatMap ConverterArm.encode ++ unmatchedArm)) =
        some (arms.map ConverterArm.encodeArm ++ [⟨.wildcard, unmatched⟩]) :=
    matchOn?_flatMap fun a ha => a.exists_encodePart (h a ha)
  rw [hdecode, hencode] at hbody
  simp [ConverterText.of?, hentries, List.filterMap_cons, Entry.struct?, Entry.implementation?,
    only?, words_objectMapper, hbody]

/-! Arms -/

/-- The members of a tuple are its places, if they have numbers. -/
theorem members_tuple_eq_ok {n : Nat} {found : List Member} :
    members (.tuple n) = .ok found ↔ n < Nat.pow 2 32 ∧ found = (List.range n).map .place := by
  rw [members]
  split <;> simp_all [eq_comm]

private theorem members_length {c : Constructor} {found : List Member} (h : members c = .ok found) :
    found.length = c.params.length := by
  cases c with
  | named fields => exact (Traversal.mapM_eq_ok_iff.mp h).length_eq.symm
  | tuple n =>
    obtain ⟨-, rfl⟩ := members_tuple_eq_ok.mp h
    simp [Constructor.params]
  | unit =>
    cases h
    rfl

/-- A type that is made from nothing has no members and no parameters. -/
theorem members_of_fieldless {c : Constructor} (h : c.hasFields = false) :
    members c = .ok [] ∧ c.params = [] := by
  have ha : c.arity = 0 := by simpa [Constructor.hasFields] using h
  cases c with
  | named fields =>
    obtain rfl := List.length_eq_zero_iff.mp ha
    exact ⟨rfl, rfl⟩
  | tuple n =>
    obtain rfl : n = 0 := ha
    exact ⟨rfl, rfl⟩
  | unit => exact ⟨rfl, rfl⟩

theorem fieldMember_eq_ok {name : String} {m : Member} (h : fieldMember name = .ok m) :
    ∃ w, m = .field w := by
  unfold fieldMember at h
  split at h
  · next w _ => exact ⟨w, (Except.ok.inj h).symm⟩
  · cases h

/-- The members of a constructor can be filled with its parameters. -/
theorem fills_members {c : Constructor} {found : List Member} (h : members c = .ok found)
    {named : Bool} (hn : named = true ↔ ∃ fields, c = .named fields) :
    ConverterArm.Fills named (c.params.zip found) := by
  cases c with
  | named fields =>
    obtain rfl : named = true := hn.mpr ⟨fields, rfl⟩
    obtain ⟨words, rfl⟩ : ∃ words : List Word, found = words.map .field := by
      have hf := Traversal.mapM_eq_ok_iff.mp h
      clear h hn
      induction hf with
      | nil => exact ⟨[], rfl⟩
      | cons hm _ ih =>
        obtain ⟨w, rfl⟩ := fieldMember_eq_ok hm
        obtain ⟨words, rfl⟩ := ih
        exact ⟨w :: words, rfl⟩
    rw [List.zip_map_right]
    exact .named (fields.zip words)
  | tuple n =>
    obtain rfl : named = false := by simpa using hn
    obtain ⟨-, rfl⟩ := members_tuple_eq_ok.mp h
    -- keys and places come from one range, so each place is where its key stands
    have hk := ConverterArm.Fills.places ((List.range n).map toString)
    rw [List.zipIdx_eq_zip_range', List.length_map, List.length_range, ← List.range_eq_range'] at hk
    rw [Constructor.params, List.zip_map_right]
    exact hk
  | unit =>
    obtain rfl : named = false := by simpa using hn
    cases h
    exact .places []

theorem mappedArm_eq_ok {m : MappedType} {a : ConverterArm} (h : mappedArm m = .ok a) :
    ∃ found, members m.constructor = .ok found ∧ Source.path? m.path.text = some a.type ∧
      a.key = m.path.text ∧ a.fields = some (m.constructor.params.zip found) ∧
      ConverterArm.Fills a.named (m.constructor.params.zip found) := by
  unfold mappedArm at h
  simp only [Traversal.bind_eq_ok_iff, Traversal.pure_eq_ok_iff, path_eq_ok_iff] at h
  obtain ⟨type, ht, found, hm, rfl⟩ := h
  refine ⟨found, hm, ht, rfl, rfl, fills_members hm ?_⟩
  cases m.constructor <;> simp

theorem fieldlessArm_eq_ok {p : SchemaPath} {a : ConverterArm} (h : fieldlessArm p = .ok a) :
    Source.path? p.text = some a.type ∧ a.key = p.text ∧ a.fields = none ∧ a.named = true := by
  unfold fieldlessArm at h
  simp only [Traversal.bind_eq_ok_iff, Traversal.pure_eq_ok_iff, path_eq_ok_iff] at h
  obtain ⟨type, ht, rfl⟩ := h
  exact ⟨ht, rfl, rfl, rfl⟩

/-- The arms of a type that is made from nothing take nothing and put nothing. -/
theorem bodies_fieldlessArm {p : SchemaPath} {a : ConverterArm} (h : fieldlessArm p = .ok a) :
    Assembly.of? a.decodeBody = some ⟨a.type, []⟩ ∧
      Disassembly.of? a.encodeBody = some ⟨a.type, []⟩ := by
  obtain ⟨hp, -, hf, hn⟩ := fieldlessArm_eq_ok h
  have hb := a.assembly?_decodeBody (by rw [hf, hn]; exact .named [])
  have hc := a.disassembly?_encodeBody (Source.balanced_path? hp)
  rw [hf] at hb hc
  exact ⟨hb, hc⟩

/-- A converter is made of one arm for each type, those that are converted field by field first. -/
theorem fieldMapper_eq_ok {f : ConverterFile} {ts : List Token} (h : fieldMapper f = .ok ts) :
    ∃ type mapped fieldless, Source.identifier? f.converter = some type ∧
      List.Forall₂ (fun m a => mappedArm m = .ok a) f.mapped mapped ∧
      List.Forall₂ (fun p a => fieldlessArm p = .ok a) f.fieldless fieldless ∧
      ts = converter f.name type (mapped ++ fieldless) := by
  unfold fieldMapper converterArms at h
  simp only [Traversal.bind_eq_ok_iff, Traversal.pure_eq_ok_iff, word_eq_ok_iff,
    Traversal.mapM_eq_ok_iff] at h
  obtain ⟨type, ht, _, ⟨mapped, hm, fieldless, hl, rfl⟩, rfl⟩ := h
  exact ⟨type, mapped, fieldless, ht, hm, hl, rfl⟩

private theorem toString_injective : Function.Injective (toString : Nat → String) := fun m n h => by
  simpa using congrArg (fun s : String => Nat.ofDigitChars 10 s.toList 0) h

/-- The parameters of a constructor are distinct unless it has two names that are the same. -/
theorem nodup_params {c : Constructor} (h : ∀ fields, c = .named fields → fields.Nodup) :
    c.params.Nodup := by
  cases c with
  | named fields => exact h fields rfl
  | tuple n => exact List.nodup_range.map toString_injective
  | unit => exact List.nodup_nil

/-- That what is read of the two arms of a type is its conversion. The members are those of its
constructor, each is filled with its parameter and put under the same. If no two parameters are the
same, values that are put are taken again. -/
structure Mirrors (m : MappedType) (a : Assembly) (b : Disassembly) : Prop where
  assembled : Source.path? m.path.text = some a.type
  disassembled : b.type = a.type
  members : members m.constructor = .ok (a.members.map Prod.fst)
  params : a.members.map Prod.snd = m.constructor.params
  entries : b.entries = a.members.map Prod.swap
  distinct : (∀ fields, m.constructor = .named fields → fields.Nodup) → m.constructor.params.Nodup
  returned : m.constructor.params.Nodup → ∀ (type : String) (values : List Json),
    values.length = m.constructor.arity → (∀ j ∈ values, j.Ordered) →
    ∃ r, RecordBuilder.putAll { type } ((b.entries.map Prod.fst).zip (values.map .json)) = .ok r ∧
      Fields.takeAll ⟨type, r⟩ (a.members.map Prod.snd) = .ok (values, ⟨type, []⟩)

private theorem mirrors_mappedArm {m : MappedType} {a : ConverterArm} (h : mappedArm m = .ok a) :
    ∃ b c, Assembly.of? a.decodeBody = some b ∧ Disassembly.of? a.encodeBody = some c ∧
      Mirrors m b c := by
  obtain ⟨found, hm, hp, _, hf, hfills⟩ := mappedArm_eq_ok h
  have hl := members_length hm
  refine ⟨_, _, a.assembly?_decodeBody (by rwa [hf]),
    a.disassembly?_encodeBody (Source.balanced_path? hp), ?_⟩
  have hfst : (m.constructor.params.zip found).map Prod.fst = m.constructor.params :=
    List.map_fst_zip (by omega)
  have hsnd : (m.constructor.params.zip found).map Prod.snd = found := List.map_snd_zip (by omega)
  have hkeys : (((a.fields.getD []).map Prod.swap).map Prod.snd) = m.constructor.params := by
    rw [hf, List.map_map]
    exact hfst
  constructor
  case assembled => exact hp
  case disassembled => rfl
  case members =>
    rw [hm, hf, List.map_map]
    exact congrArg Except.ok hsnd.symm
  case params => exact hkeys
  case entries => simp
  case distinct => exact nodup_params
  case returned =>
    intro hn type values hv hj
    have hb : (a.fields.getD []).map Prod.fst = m.constructor.params := by rwa [hf]
    simp only [hb, hkeys]
    exact Fields.takeAll_putAll type (by simpa using hv) hn hj

/-- That the text of a converter reads what it writes: both directions have one arm for each type,
those that are converted field by field first, and the arms of a type mirror each other. -/
structure ConverterText.Converts (t : ConverterText) (f : ConverterFile) : Prop where
  type : Source.identifier? f.converter = some t.type
  decode_patterns : t.conversions.decode.map Arm.pattern =
    f.names.map (fun name => .keys [name]) ++ [.wildcard]
  encode_patterns : t.conversions.encode.map Arm.pattern =
    f.names.map (fun name => .keys [name]) ++ [.wildcard]
  decode_unmatched : t.conversions.decode.getLast? = some ⟨.wildcard, unmatched⟩
  encode_unmatched : t.conversions.encode.getLast? = some ⟨.wildcard, unmatched⟩
  mapped : ∀ (i : Nat) m, f.mapped[i]? = some m → ∃ d e a b,
    t.conversions.decode[i]? = some d ∧ t.conversions.encode[i]? = some e ∧
    Assembly.of? d.body = some a ∧ Disassembly.of? e.body = some b ∧ Mirrors m a b
  fieldless : ∀ (i : Nat) p, f.fieldless[i]? = some p → ∃ d e type,
    t.conversions.decode[f.mapped.length + i]? = some d ∧
    t.conversions.encode[f.mapped.length + i]? = some e ∧
    Source.path? p.text = some type ∧
    Assembly.of? d.body = some ⟨type, []⟩ ∧ Disassembly.of? e.body = some ⟨type, []⟩

section

variable {f : ConverterFile} {mapped fieldless : List ConverterArm}
  (hm : List.Forall₂ (fun m a => mappedArm m = .ok a) f.mapped mapped)
  (hl : List.Forall₂ (fun p a => fieldlessArm p = .ok a) f.fieldless fieldless)

include hm hl

private theorem balanced_arms : ∀ a ∈ mapped ++ fieldless, Balanced a.type := by
  intro a ha
  rcases List.mem_append.mp ha with ha | ha
  · obtain ⟨m, _, h⟩ := Traversal.exists_of_mem_left hm.flip ha
    obtain ⟨_, _, hp, _⟩ := mappedArm_eq_ok h
    exact Source.balanced_path? hp
  · obtain ⟨p, _, h⟩ := Traversal.exists_of_mem_left hl.flip ha
    exact Source.balanced_path? (fieldlessArm_eq_ok h).1

private theorem keys_arms : (mapped ++ fieldless).map ConverterArm.key = f.names := by
  have hmapped : mapped.map ConverterArm.key = f.mapped.map fun m => m.path.text :=
    Traversal.map_eq_map hm fun m a h => by
      obtain ⟨_, _, _, hk, _⟩ := mappedArm_eq_ok h
      exact hk
  have hfieldless : fieldless.map ConverterArm.key = f.fieldless.map SchemaPath.text :=
    Traversal.map_eq_map hl fun p a h => (fieldlessArm_eq_ok h).2.1
  rw [List.map_append, hmapped, hfieldless]
  rfl

end

/-! Choices -/

section

variable {arms : List ConverterArm} (body : ConverterArm → List Token)

/-- If no two arms have the same key, the body for a key is that of its arm. -/
private theorem chosen?_arm (hn : (arms.map ConverterArm.key).Nodup) {a : ConverterArm}
    (ha : a ∈ arms) (more : List Arm) :
    chosen? (arms.map (fun a => ⟨.keys [a.key], body a⟩) ++ more) a.key = some (body a) := by
  induction arms with
  | nil => cases ha
  | cons b arms ih =>
    obtain ⟨hb, hn⟩ := List.nodup_cons.mp hn
    rw [List.map_cons, List.cons_append, chosen?_cons]
    rcases List.mem_cons.mp ha with rfl | ha
    · simp [Pattern.covers]
    · have hne : a.key ≠ b.key := fun he => hb (he ▸ List.mem_map_of_mem ha)
      simpa [Pattern.covers, hne] using ih hn ha

private theorem chosen?_other {name : String} (hn : name ∉ arms.map ConverterArm.key) :
    chosen? (arms.map (fun a => ⟨.keys [a.key], body a⟩) ++ [⟨.wildcard, unmatched⟩]) name =
      some unmatched := by
  induction arms with
  | nil => rfl
  | cons b arms ih =>
    obtain ⟨hb, hn⟩ := not_or.mp (List.mem_cons.not.mp hn)
    rw [List.map_cons, List.cons_append, chosen?_cons]
    simpa [Pattern.covers, hb] using ih hn

end

/-- What the text of a converter chooses for a name, if no two of its types have the same: the arms
of that type, and the unmatched ones for any other name. -/
theorem fieldMapper_chooses {f : ConverterFile} {ts : List Token} (h : fieldMapper f = .ok ts)
    (hn : f.names.Nodup) :
    ∃ t, ConverterText.of? ts = some t ∧ Source.identifier? f.converter = some t.type ∧
      (∀ m ∈ f.mapped, ∃ d e a b,
        chosen? t.conversions.decode m.path.text = some d ∧
        chosen? t.conversions.encode m.path.text = some e ∧
        Assembly.of? d = some a ∧ Disassembly.of? e = some b ∧ Mirrors m a b) ∧
      (∀ p ∈ f.fieldless, ∃ d e type,
        chosen? t.conversions.decode p.text = some d ∧
        chosen? t.conversions.encode p.text = some e ∧ Source.path? p.text = some type ∧
        Assembly.of? d = some ⟨type, []⟩ ∧ Disassembly.of? e = some ⟨type, []⟩) ∧
      ∀ name ∉ f.names, chosen? t.conversions.decode name = some unmatched ∧
        chosen? t.conversions.encode name = some unmatched := by
  obtain ⟨type, mapped, fieldless, htype, hm, hl, rfl⟩ := fieldMapper_eq_ok h
  have hkeys : (mapped ++ fieldless).map ConverterArm.key = f.names := keys_arms hm hl
  have hdistinct : ((mapped ++ fieldless).map ConverterArm.key).Nodup := hkeys ▸ hn
  have hchosen (a : ConverterArm) (ha : a ∈ mapped ++ fieldless)
      (body : ConverterArm → List Token) :=
    chosen?_arm body hdistinct ha [⟨.wildcard, unmatched⟩]
  refine ⟨_, of?_converter f.name type (balanced_arms hm hl), htype, fun m hmem => ?_,
    fun p hmem => ?_, fun name hname => ?_⟩
  · obtain ⟨a, ha, hok⟩ := Traversal.exists_of_mem_left hm hmem
    obtain ⟨b, c, hb, hc, hmirrors⟩ := mirrors_mappedArm hok
    obtain ⟨_, _, _, hkey, _⟩ := mappedArm_eq_ok hok
    rw [← hkey]
    exact ⟨_, _, b, c, hchosen a (List.mem_append_left _ ha) _,
      hchosen a (List.mem_append_left _ ha) _, hb, hc, hmirrors⟩
  · obtain ⟨a, ha, hok⟩ := Traversal.exists_of_mem_left hl hmem
    obtain ⟨hb, hc⟩ := bodies_fieldlessArm hok
    obtain ⟨hp, hkey, -⟩ := fieldlessArm_eq_ok hok
    rw [← hkey]
    exact ⟨_, _, a.type, hchosen a (List.mem_append_right _ ha) _,
      hchosen a (List.mem_append_right _ ha) _, hkey ▸ hp, hb, hc⟩
  · rw [← hkeys] at hname
    exact ⟨chosen?_other _ hname, chosen?_other _ hname⟩

/-- Every converter that is emitted can be read, and reads what it writes. -/
theorem fieldMapper_converts {f : ConverterFile} {ts : List Token} (h : fieldMapper f = .ok ts) :
    ∃ t, ConverterText.of? ts = some t ∧ t.Converts f := by
  obtain ⟨type, mapped, fieldless, htype, hm, hl, rfl⟩ := fieldMapper_eq_ok h
  refine ⟨_, of?_converter f.name type (balanced_arms hm hl), ?_⟩
  have hpatterns : (mapped ++ fieldless).map (fun a => Pattern.keys [a.key]) =
      f.names.map fun name => .keys [name] := by
    rw [← keys_arms hm hl, List.map_map]
    rfl
  have hlength : f.mapped.length = mapped.length := hm.length_eq
  constructor
  case type => exact htype
  case decode_patterns =>
    rw [List.map_append, List.map_map, ← hpatterns]
    rfl
  case encode_patterns =>
    rw [List.map_append, List.map_map, ← hpatterns]
    rfl
  case decode_unmatched => exact List.getLast?_concat
  case encode_unmatched => exact List.getLast?_concat
  case mapped =>
    intro i m hi
    obtain ⟨a, ha, hok⟩ := Traversal.exists_of_getElem? hm hi
    obtain ⟨b, c, hb, hc, hmirrors⟩ := mirrors_mappedArm hok
    have hlt : i < mapped.length := (List.getElem?_eq_some_iff.mp ha).1
    refine ⟨a.decodeArm, a.encodeArm, b, c, ?_, ?_, hb, hc, hmirrors⟩ <;>
      rw [List.getElem?_append_left (by simp; omega), List.getElem?_map,
        List.getElem?_append_left hlt, ha] <;> rfl
  case fieldless =>
    intro i p hi
    obtain ⟨a, ha, hok⟩ := Traversal.exists_of_getElem? hl hi
    obtain ⟨hb, hc⟩ := bodies_fieldlessArm hok
    have hp := (fieldlessArm_eq_ok hok).1
    have hlt : i < fieldless.length := (List.getElem?_eq_some_iff.mp ha).1
    refine ⟨a.decodeArm, a.encodeArm, a.type, ?_, ?_, hp, hb, hc⟩ <;>
      rw [hlength, List.getElem?_append_left (by simp; omega), List.getElem?_map,
        List.getElem?_append_right (by omega), Nat.add_sub_cancel_left, ha] <;> rfl

/-- A converter of a tuple with more than ten places, of fields with the names of keywords, and of a
type that is made from nothing. -/
def mixed : ConverterFile where
  group := 0
  name := "a"
  converter := "AMapper"
  module := "a"
  mapped := [⟨⟨"x::T<u8>"⟩, .tuple 11⟩, ⟨⟨"N"⟩, .named ["type", "name"]⟩, ⟨⟨"U"⟩, .unit⟩]
  fieldless := [⟨"x::E"⟩]

theorem fieldMapper_converts_mixed :
    ∃ ts, fieldMapper mixed = .ok ts ∧ ∃ t, ConverterText.of? ts = some t ∧ t.Converts mixed := by
  have hok : (fieldMapper mixed).isOk = true := by decide +kernel
  obtain ⟨ts, hts⟩ : ∃ ts, fieldMapper mixed = .ok ts := by
    cases h : fieldMapper mixed with
    | ok ts => exact ⟨ts, rfl⟩
    | error e => simp [h, Except.isOk, Except.toBool] at hok
  exact ⟨ts, hts, fieldMapper_converts hts⟩

end Switchboard.Emission
