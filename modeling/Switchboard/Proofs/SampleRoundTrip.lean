import Switchboard.Proofs.JsonReading
import Switchboard.Proofs.Records
import Switchboard.Proofs.SampleSession

/-! Objects of the sample schema as records and back. What is written of an object has the
parameters of its constructor for keys and is read as the object, and whatever is read can be
written again. -/

namespace Switchboard

open SortedMap (Holds)

/-! ## Fields that hold -/

/-- That a value has the form of a JSON value once it is put into a record. -/
def Storable.Stores (value : String × Storable) (stored : String × Json) : Prop :=
  value.1 = stored.1 ∧ value.2.toJson = .ok stored.2

private theorem RecordBuilder.putAll_stores {b : RecordBuilder} {values : List (String × Storable)}
    {pairs : List (String × Json)} (h : List.Forall₂ Storable.Stores values pairs) :
    b.putAll values = b.putAll (pairs.map fun (k, j) => (k, .json j)) := by
  induction h generalizing b with
  | nil => rfl
  | cons hv _ ih =>
    obtain ⟨hk, hj⟩ := hv
    simp only [List.map_cons, putAll, put, hk, hj, ih]
    rfl

/-- That an object is made of any fields that hold some values, whatever else is left over. -/
def Fields.Makes {β : Type} (read : Fields → Except ConversionError β)
    (pairs : List (String × Json)) (b : β) : Prop :=
  ∀ f : Fields, Holds f.record pairs → read f = .ok b

namespace Fields.Makes

variable {α β : Type} {pairs : List (String × Json)} {b : β}

private theorem done : Makes (fun _ => .ok b) pairs b := fun _ _ => rfl

private theorem map {γ : Type} {read : Fields → Except ConversionError β} (h : Makes read pairs b)
    (g : β → γ) : Makes (fun f => (read f).map g) pairs (g b) :=
  fun f hf => congrArg (Except.map g) (h f hf)

private theorem andThen {read : Json.Reader α} {key : String} {j : Json} {a : α}
    {next : α → Fields → Except ConversionError β} (hr : Json.Reader.Reads read j a)
    (hk : key ∉ pairs.map Prod.fst) (hn : Makes (next a) pairs b) :
    Makes (fun f => f.andThen read key next) ((key, j) :: pairs) b := by
  intro f hf
  have hv : f.value key = j := by
    rw [Fields.value, (hf.get?_eq_some_iff key j).mpr List.mem_cons_self]
    rfl
  have hrest := hn { f with record := SortedMap.erase key f.record } (hf.erase hk)
  simp only [Fields.andThen, Fields.take, hv, hr.ofValue, hrest]

end Fields.Makes

namespace Sample

open Json.Reader

/-! ## Values of fields -/

private theorem reads_byte (n : UInt8) : Reads byteReader (.int n.toNat) n := by
  intro o
  have hb : (0 : Int) ≤ n.toNat ∧ (n.toNat : Int) ≤ 255 := by have := n.toNat_lt; omega
  rw [byteReader, reads_integer "u8" hb o]
  exact congrArg Except.ok UInt8.ofNat_toNat

private theorem reads_int64 (n : Int64) : Reads int64Reader (.int n.toInt) n := by
  intro o
  have hb : Bounds.signedLeast ≤ n.toInt ∧ n.toInt ≤ Bounds.signedGreatest := by
    have hl := n.le_toInt
    have hg := n.toInt_lt
    simp only [Bounds.signedLeast, Bounds.signedGreatest]
    omega
  rw [int64Reader, reads_integer "i64" hb o]
  exact congrArg Except.ok (Int64.ofInt_toInt n)

private theorem reads_nickname (nickname : Option String) :
    Reads (option string) (.optional .string nickname) nickname := by
  cases nickname with
  | none => exact reads_null string
  | some s => exact reads_some (reads_string s) nofun

private theorem reads_address (a : Address) : Reads Address.reader a.toJson a := fun _ => rfl

private theorem toJson_whole {n : Int} (hl : Bounds.signedLeast ≤ n)
    (hg : n ≤ Bounds.unsignedGreatest) :
    (Storable.whole n).toJson = .ok (.int n) := by
  simp [Storable.toJson, Json.keepsInt, hl, hg]

private theorem toJson_byte (n : UInt8) : (Storable.whole n.toNat).toJson = .ok (.int n.toNat) := by
  have hn := n.toNat_lt
  refine toJson_whole ?_ ?_
  · simp only [Bounds.signedLeast]
    omega
  · simp only [Bounds.unsignedGreatest]
    omega

private theorem toJson_int64 (n : Int64) :
    (Storable.whole n.toInt).toJson = .ok (.int n.toInt) := by
  have hl := n.le_toInt
  have hg := n.toInt_lt
  refine toJson_whole ?_ ?_
  · simp only [Bounds.signedLeast]
    omega
  · simp only [Bounds.unsignedGreatest]
    omega

namespace FieldType

/-- The JSON form of a value. -/
def json : (t : FieldType) → t.Value → Json
  | .string, s => .string s
  | .byte, n => .int n.toNat
  | .integer, n => .int n.toInt
  | .bool, b => .bool b
  | .optional, o => .optional .string o
  | .strings, l => .strings l
  | .address, a => a.toJson

private theorem toJson_store (t : FieldType) (value : t.Value) :
    (t.store value).toJson = .ok (t.json value) := by
  cases t with
  | byte => exact toJson_byte value
  | integer => exact toJson_int64 value
  | string | bool | optional | strings | address => rfl

private theorem reads_json (t : FieldType) (value : t.Value) :
    Reads t.reader (t.json value) value := by
  cases t with
  | string => exact reads_string value
  | byte => exact reads_byte value
  | integer => exact reads_int64 value
  | bool => exact reads_bool value
  | optional => exact reads_nickname value
  | strings => exact reads_strings value
  | address => exact reads_address value

end FieldType

/-- The JSON forms of the values of fields, each under the key of its field. -/
def jsonValues : (fields : List Field) → Values fields → List (String × Json)
  | [], _ => []
  | field :: rest, (value, values) => (field.key, field.type.json value) :: jsonValues rest values

private theorem keys_jsonValues (fields : List Field) (values : Values fields) :
    (jsonValues fields values).map Prod.fst = fields.map Field.key := by
  induction fields with
  | nil => rfl
  | cons field rest ih => exact congrArg (field.key :: ·) (ih values.2)

private theorem stores_jsonValues (fields : List Field) (values : Values fields) :
    List.Forall₂ Storable.Stores (storeValues fields values) (jsonValues fields values) := by
  induction fields with
  | nil => exact .nil
  | cons field rest ih => exact .cons ⟨rfl, field.type.toJson_store values.1⟩ (ih values.2)

/-- Values of fields that have been put are taken again. What is taken first is no longer in the way
of the others, since no two fields have the same key. -/
theorem makes_takeValues {fields : List Field} (hn : (fields.map Field.key).Nodup)
    (values : Values fields) :
    Fields.Makes (takeValues fields) (jsonValues fields values) values := by
  induction fields with
  | nil => exact .done
  | cons field rest ih =>
    obtain ⟨hk, hn⟩ := List.nodup_cons.mp hn
    refine .andThen (field.type.reads_json values.1) ?_ ((ih hn values.2).map _)
    rwa [keys_jsonValues]

/-! ## Converters -/

section

variable {m : Member} {s : Struct} (hs : s ∈ m.structs)

include hs

/-- The type that a converter finds under a name. -/
private theorem find?_types : m.types.find? (fun t => t.name == s.path) = some s.converted := by
  have hn : (m.structs.map Struct.path).Nodup := by cases m <;> decide +kernel
  have hf : m.structs.find? (fun u => u.path == s.path) = some s := by
    obtain ⟨u, hu⟩ := Option.isSome_iff_exists.mp
      (List.find?_isSome (p := fun u => u.path == s.path).mpr ⟨s, hs, by simp⟩)
    have he : u.path = s.path := by simpa using List.find?_some hu
    rw [hu, List.inj_on_of_nodup_map hn (List.mem_of_find?_eq_some hu) hs he]
  rw [Member.types, List.find?_map]
  exact congrArg (Option.map Struct.converted) hf

/-- A record is made an object by taking the values of the fields. -/
theorem decode_path (r : Record) :
    m.converter.decode s.path r = (takeValues s.fields ⟨s.path, r⟩).map s.make := by
  simp only [Member.converter, Converter.ofTypes, find?_types hs]
  rfl

/-- An object is made a record by putting the values of the fields, if it is of the struct. -/
theorem encodeAs_path (o : Object) :
    m.converter.encodeAs o s.path =
      match s.values? o with
      | some values => RecordBuilder.putAll { type := s.path } (storeValues s.fields values)
      | none => .error (.typeMismatch s.path o.typeName) := by
  simp only [Member.converter, Converter.ofTypes, find?_types hs, Struct.converted]
  cases s.values? o <;> rfl

theorem memberOf?_path : Dispatcher.memberOf? s.path = some m :=
  (mem_structs_iff m s.path).mp ⟨s, hs, rfl⟩

/-- What the converter of a group writes of an object has the parameters for keys and is read as the
object. -/
theorem restores {o : Object} {values : Values s.fields} (hv : s.values? o = some values) :
    o.typeName = s.path ∧ ∃ r, m.converter.encodeAs o s.path = .ok r ∧
      (SortedMap.keys r).Perm s.constructor.params ∧ m.converter.decode s.path r = .ok o := by
  have ho : s.make values = o := s.make_of_values? o values hv
  have hkeys := keys_jsonValues s.fields values
  have hnodup : (([] ++ jsonValues s.fields values).map Prod.fst).Nodup := by
    rw [List.nil_append, hkeys]
    exact s.distinct
  obtain ⟨r, hput, hr⟩ := RecordBuilder.putAll_holds (b := { type := s.path }) SortedMap.holds_nil
    hnodup
  rw [List.nil_append] at hr
  refine ⟨ho ▸ s.typeName values, r, ?_, ?_, ?_⟩
  · rw [encodeAs_path hs, hv]
    exact (RecordBuilder.putAll_stores (stores_jsonValues s.fields values)).trans hput
  · have hp : s.constructor.params = (jsonValues s.fields values).map Prod.fst :=
      s.params.trans hkeys.symm
    rw [hp]
    exact hr.keys_perm hnodup
  · rw [decode_path hs, makes_takeValues s.distinct values ⟨s.path, r⟩ hr]
    exact congrArg Except.ok ho

/-- What the converter of a group makes can be written again. -/
theorem values?_of_decode {r : Record} {o : Object}
    (h : m.converter.decode s.path r = .ok o) : ∃ values, s.values? o = some values := by
  rw [decode_path hs] at h
  cases ht : takeValues s.fields ⟨s.path, r⟩ with
  | error e => simp [ht, Except.map] at h
  | ok values =>
    rw [ht] at h
    exact ⟨values, Except.ok.inj h ▸ s.values?_make values⟩

end

/-- An object of the schema, which no stranger is, is one of a struct. -/
theorem exists_struct {o : Object} (h : ∀ type, o ≠ .stranger type) :
    ∃ m : Member, ∃ s ∈ m.structs, ∃ values, s.values? o = some values := by
  cases o with
  | pet p => exact ⟨.pets, .pet, by simp [Member.structs], _, rfl⟩
  | owner o => exact ⟨.pets, .owner, by simp [Member.structs], _, rfl⟩
  | tag => exact ⟨.pets, .tag, by simp [Member.structs], _, rfl⟩
  | person p => exact ⟨.people, .person, by simp [Member.structs], _, rfl⟩
  | pair p => exact ⟨.people, .pair, by simp [Member.structs], _, rfl⟩
  | keyword k => exact ⟨.keywords, .keyword, by simp [Member.structs], _, rfl⟩
  | marker => exact ⟨.keywords, .marker, by simp [Member.structs], _, rfl⟩
  | stranger type => exact absurd rfl (h type)

/-! ## Dispatchers -/

namespace Dispatcher

/-- That every converter that has been made is that of its group. -/
def Steady (d : Dispatcher) : Prop := ∀ m c, (d.slot m).value = some c → c = m.converter

variable {d : Dispatcher}

theorem steady_start : Steady {} := by
  intro m c h
  cases m <;> cases h

private theorem slot_setSlot (d : Dispatcher) (s : Slot (Converter Object)) (m other : Member) :
    (d.setSlot s m).slot other = if other = m then s else d.slot other := by
  cases m <;> cases other <;> rfl

private theorem converter_steady (h : d.Steady) (m : Member) :
    (d.converter m).1 = m.converter ∧ (d.converter m).2.Steady := by
  have hset (s : Slot (Converter Object)) (hs : s.value = some m.converter) :
      (d.setSlot s m).Steady := by
    intro other c hc
    rw [slot_setSlot] at hc
    split at hc
    case isTrue he =>
      rw [he]
      exact Option.some.inj (hc.symm.trans hs)
    case isFalse => exact h other c hc
  simp only [converter, Slot.getOrMake]
  cases hv : (d.slot m).value with
  | none => exact ⟨rfl, hset _ rfl⟩
  | some c =>
    obtain rfl := h m c hv
    exact ⟨rfl, hset _ hv⟩

theorem decode_steady (h : d.Steady) (type : String) (r : Record) :
    (d.decode type r).1 = (match memberOf? type with
      | none => .error (.unmatched type)
      | some m => m.converter.decode type r) ∧ (d.decode type r).2.Steady := by
  rw [decode]
  cases memberOf? type with
  | none => exact ⟨rfl, h⟩
  | some m =>
    obtain ⟨hc, hs⟩ := converter_steady h m
    exact ⟨congrArg (fun c => c.decode type r) hc, hs⟩

theorem encodeAs_steady (h : d.Steady) (o : Object) (type : String) :
    (d.encodeAs o type).1 = (match memberOf? type with
      | none => .error (.unmatched type)
      | some m => m.converter.encodeAs o type) ∧ (d.encodeAs o type).2.Steady := by
  rw [encodeAs]
  cases memberOf? type with
  | none => exact ⟨rfl, h⟩
  | some m =>
    obtain ⟨hc, hs⟩ := converter_steady h m
    exact ⟨congrArg (fun c => c.encodeAs o type) hc, hs⟩

private theorem pull_steady {σ α β : Type} {convert : Conversion Dispatcher α β}
    (hc : ∀ a {d : Dispatcher}, d.Steady → (convert a d).2.Steady) (supply : Supply σ α)
    (s : IndexedStream σ) (h : d.Steady) : (s.pull supply convert d).2.2.Steady := by
  unfold IndexedStream.pull
  split
  · exact h
  · split
    · exact h
    · next a inner _ =>
      have hd := hc a h
      split <;> next he => rw [he] at hd; exact hd

private theorem batch_steady {σ : Type} (h : d.Steady) (b : OpenBatch σ Object) :
    (d.pull b).2.2.Steady := by
  unfold pull
  split
  · exact pull_steady (fun r _ hd => (decode_steady hd _ r).2) _ _ h
  · exact pull_steady (fun o _ hd => (encodeAs_steady hd o o.typeName).2) _ _ h

end Dispatcher

namespace Session

variable {σ : Type} {s : Session σ}

private theorem step_steady (h : s.dispatcher.Steady) (use : Use σ) :
    (s.step use).2.dispatcher.Steady := by
  cases use with
  | decode type r => exact (Dispatcher.decode_steady h type r).2
  | encode o => exact (Dispatcher.encodeAs_steady h o o.typeName).2
  | encodeAs o type => exact (Dispatcher.encodeAs_steady h o type).2
  | converter m => exact (Dispatcher.converter_steady h m).2
  | openBatch batch items => exact h
  | pull i =>
    rw [step]
    cases s.opened[i]? with
    | none => exact h
    | some b => exact Dispatcher.batch_steady h b

theorem run_steady (h : s.dispatcher.Steady) (uses : List (Use σ)) :
    (run uses s).2.dispatcher.Steady := by
  induction uses generalizing s with
  | nil => exact h
  | cons use rest ih => exact ih (step_steady h use)

end Session

/-- The converters and the dispatcher are those that are generated for the sample schema. At any
time, an object of the schema is written as a record with the parameters of its constructor for
keys, and the record is read as the object. Whatever is read of any record under any name is an
object of the type with that name, which can be written and read again. -/
theorem decode_encode : ∃ i p, Generates i p ∧ ∀ {σ : Type} (uses : List (Use σ)),
    let d := (Session.run uses {}).2.dispatcher
    (∀ o : Object, (∀ type, o ≠ .stranger type) → ∃ c r,
      i.sources.introspector ⟨o.typeName⟩ = .ok c ∧ (d.encode o).1 = .ok r ∧
        (SortedMap.keys r).Perm c.params ∧
          ((d.encode o).2.decode o.typeName r).1 = .ok o) ∧
    ∀ type r o, (d.decode type r).1 = .ok o → o.typeName = type ∧ ∃ r',
      ((d.decode type r).2.encodeAs o type).1 = .ok r' ∧
        (((d.decode type r).2.encodeAs o type).2.decode type r').1 = .ok o := by
  obtain ⟨i, p, hg⟩ := exists_generates
  refine ⟨i, p, hg, fun {σ} uses => ?_⟩
  intro d
  have hd : d.Steady := Session.run_steady Dispatcher.steady_start uses
  constructor
  · intro o ho
    obtain ⟨m, s, hs, values, hv⟩ := exists_struct ho
    obtain ⟨hn, r, he, hk, hr⟩ := restores hs hv
    obtain ⟨hencode, hsteady⟩ := Dispatcher.encodeAs_steady hd o s.path
    obtain ⟨hdecode, -⟩ := Dispatcher.decode_steady hsteady s.path r
    rw [memberOf?_path hs] at hencode hdecode
    rw [Dispatcher.encode, hn]
    exact ⟨s.constructor, r, hg.known s (mem_structs hs), hencode.trans he, hk, hdecode.trans hr⟩
  · intro type r o h
    obtain ⟨hdecode, hsteady⟩ := Dispatcher.decode_steady hd type r
    rw [h] at hdecode
    cases hm : Dispatcher.memberOf? type with
    | none => simp [hm] at hdecode
    | some m =>
      obtain ⟨s, hs, rfl⟩ := (mem_structs_iff m type).mpr hm
      rw [hm] at hdecode
      obtain ⟨values, hv⟩ := values?_of_decode hs hdecode.symm
      obtain ⟨hn, r', he, -, hr⟩ := restores hs hv
      obtain ⟨hencode, hsteady'⟩ := Dispatcher.encodeAs_steady hsteady o s.path
      obtain ⟨hagain, -⟩ := Dispatcher.decode_steady hsteady' s.path r'
      rw [hm] at hencode hagain
      exact ⟨hn, r', hencode.trans he, hagain.trans hr⟩

/-- A record with an address as a sequence and a field too many. -/
def loose : Record :=
  [("address", .array [.string "Rom", .string "00100"]), ("more", .null), ("name", .string "Ada")]

theorem decode_encode_loose :
    let d := (Session.run Session.interleaved {}).2.dispatcher
    let ada : Object := .person ⟨"Ada", ⟨"Rom", "00100"⟩⟩
    (d.decode ada.typeName loose).1 = .ok ada ∧
      (∃ r, ((d.decode ada.typeName loose).2.encodeAs ada ada.typeName).1 = .ok r) ∧
      ∃ i p c r, Generates i p ∧ i.sources.introspector ⟨ada.typeName⟩ = .ok c ∧
        (d.encode ada).1 = .ok r ∧ (SortedMap.keys r).Perm c.params := by
  intro d ada
  obtain ⟨i, p, hg, hall⟩ := decode_encode
  obtain ⟨hencode, hdecode⟩ := hall Session.interleaved
  have h : (d.decode ada.typeName loose).1 = .ok ada := by decide +kernel
  obtain ⟨-, r', he, -⟩ := hdecode _ loose ada h
  obtain ⟨c, r, hc, hr, hk, -⟩ := hencode ada nofun
  exact ⟨h, ⟨r', he⟩, i, p, c, r, hg, hc, hr, hk⟩

end Sample

end Switchboard
