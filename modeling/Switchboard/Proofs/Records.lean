import Switchboard.Conversion.Record
import Switchboard.Proofs.SortedMap
import Switchboard.Proofs.Traversal

/-! Records give back what was put into them. Under distinct keys, values come out as they went in,
in the order in which they are asked for, and nothing is left. -/

namespace Switchboard

namespace SortedMap

variable {α : Type}

/-- That a map has these values under these keys and no others. -/
structure Holds (m : SortedMap α) (pairs : List (String × α)) : Prop where
  ascending : Ascending m
  get?_eq_some_iff : ∀ k a, get? k m = some a ↔ (k, a) ∈ pairs

theorem holds_nil : Holds ([] : SortedMap α) [] := ⟨ascending_nil, by simp [get?]⟩

variable {m : SortedMap α} {pairs : List (String × α)} {key : String} {a : α}

private theorem Holds.eq_nil (h : Holds m []) : m = [] :=
  ext h.ascending ascending_nil fun k =>
    Option.eq_none_iff_forall_ne_some.mpr fun a ha => by simpa using (h.get?_eq_some_iff k a).mp ha

theorem Holds.keys_perm (h : Holds m pairs) (hn : (pairs.map Prod.fst).Nodup) :
    (keys m).Perm (pairs.map Prod.fst) := by
  refine (List.perm_ext_iff_of_nodup h.ascending.nodup hn).mpr fun k => ?_
  rw [← isSome_get?_iff, Option.isSome_iff_exists, List.mem_map]
  simp [h.get?_eq_some_iff]

private theorem Holds.insert (h : Holds m pairs) (hk : key ∉ pairs.map Prod.fst) :
    Holds (insert key a m) (pairs ++ [(key, a)]) where
  ascending := ascending_insert h.ascending
  get?_eq_some_iff k b := by
    rw [get?_insert, List.mem_append, List.mem_singleton, Prod.mk.injEq]
    split
    · next he =>
      subst he
      have hn : (k, b) ∉ pairs := fun hm => hk (List.mem_map_of_mem hm)
      simp [hn, eq_comm]
    · next hne => simp [hne, h.get?_eq_some_iff]

theorem Holds.erase (h : Holds m ((key, a) :: pairs)) (hk : key ∉ pairs.map Prod.fst) :
    Holds (erase key m) pairs where
  ascending := ascending_erase h.ascending
  get?_eq_some_iff k b := by
    rw [get?_erase h.ascending]
    split
    · next he =>
      subst he
      have hn : (k, b) ∉ pairs := fun hm => hk (List.mem_map_of_mem hm)
      simp [hn]
    · next hne => simp [hne, h.get?_eq_some_iff]

end SortedMap

open SortedMap (Ascending Holds)

namespace Json

/-- That the keys of every object in a value come in ascending order, each once. -/
inductive Ordered : Json → Prop
  | null : Ordered .null
  | bool (b : Bool) : Ordered (.bool b)
  | int (n : Int) : Ordered (.int n)
  | double (d : Double) : Ordered (.double d)
  | string (s : String) : Ordered (.string s)
  | array {items : List Json} : (∀ j ∈ items, Ordered j) → Ordered (.array items)
  | object {entries : SortedMap Json} :
      Ascending entries → (∀ e ∈ entries, Ordered e.2) → Ordered (.object entries)

private theorem toItems_ofItems {items : List Json}
    (h : ∀ j ∈ items, (Tree.ofJson j).toJson = .ok j) :
    Tree.toItems (Tree.ofItems items) = .ok items := by
  induction items with
  | nil => rfl
  | cons j items ih =>
    obtain ⟨hj, hitems⟩ := List.forall_mem_cons.mp h
    rw [Tree.ofItems, Tree.toItems, hj, ih hitems]
    rfl

private theorem toEntries_ofEntries {entries m : SortedMap Json} (ha : Ascending (m ++ entries))
    (h : ∀ e ∈ entries, (Tree.ofJson e.2).toJson = .ok e.2) :
    Tree.toEntries (Tree.ofEntries entries) m = .ok (m ++ entries) := by
  induction entries generalizing m with
  | nil => rw [Tree.ofEntries, Tree.toEntries, List.append_nil]
  | cons e entries ih =>
    obtain ⟨k, j⟩ := e
    obtain ⟨hj, hentries⟩ := List.forall_mem_cons.mp h
    have hlt : ∀ l ∈ SortedMap.keys m, l < k := by
      intro l hl
      rw [Ascending, SortedMap.keys, List.map_append] at ha
      exact (List.pairwise_append.mp ha).2.2 l hl k List.mem_cons_self
    rw [Tree.ofEntries, Tree.toEntries, hj]
    change Tree.toEntries (Tree.ofEntries entries) (SortedMap.insert k j m) = _
    rw [SortedMap.insert_of_lt hlt, ih (by rwa [List.append_assoc]) hentries, List.append_assoc]
    rfl

mutual
private theorem ordered_of_toJson : (t : Tree) → {j : Json} → t.toJson = .ok j → j.Ordered
  | .null, _, h => by cases h; exact .null
  | .bool b, _, h => by cases h; exact .bool b
  | .number (.ok (.int n)), _, h => by cases h; exact .int n
  | .number (.ok (.double d)), _, h => by cases h; exact .double d
  | .string (.ok s), _, h => by cases h; exact .string s
  | .number (.error f), _, h | .string (.error f), _, h | .broken _ f, _, h => by cases h
  | .array items ending, _, h => by
    simp only [Tree.toJson, Traversal.bind_eq_ok_iff, Traversal.pure_eq_ok_iff] at h
    obtain ⟨found, hf, _, _, rfl⟩ := h
    exact .array (ordered_of_toItems items hf)
  | .object entries ending, _, h => by
    simp only [Tree.toJson, Traversal.bind_eq_ok_iff, Traversal.pure_eq_ok_iff] at h
    obtain ⟨found, hf, _, _, rfl⟩ := h
    have ho := ordered_of_toEntries entries SortedMap.ascending_nil (by simp) hf
    exact .object ho.1 ho.2

theorem ordered_of_toItems : (items : List Tree) → {found : List Json} →
    Tree.toItems items = .ok found → ∀ j ∈ found, j.Ordered
  | [], _, h => by cases h; simp
  | t :: items, _, h => by
    simp only [Tree.toItems, Traversal.bind_eq_ok_iff, Traversal.pure_eq_ok_iff] at h
    obtain ⟨j, hj, rest, hr, rfl⟩ := h
    exact List.forall_mem_cons.mpr ⟨ordered_of_toJson t hj, ordered_of_toItems items hr⟩

theorem ordered_of_toEntries : (entries : List (Tree × Tree)) → {m found : SortedMap Json} →
    Ascending m → (∀ e ∈ m, e.2.Ordered) → Tree.toEntries entries m = .ok found →
    Ascending found ∧ ∀ e ∈ found, e.2.Ordered
  | [], _, _, ha, ho, h => by cases h; exact ⟨ha, ho⟩
  | (k, t) :: entries, m, _, ha, ho, h => by
    simp only [Tree.toEntries, Traversal.bind_eq_ok_iff] at h
    obtain ⟨key, _, j, hj, hr⟩ := h
    refine ordered_of_toEntries entries (SortedMap.ascending_insert ha) (fun e he => ?_) hr
    rcases SortedMap.mem_insert he with rfl | he
    · exact ordered_of_toJson t hj
    · exact ho e he
end

private theorem toJson_ofJson {j : Json} (h : j.Ordered) : (Tree.ofJson j).toJson = .ok j := by
  induction h with
  | null | bool | int | double | string => rfl
  | array _ ih =>
    rw [Tree.ofJson, Tree.toJson, toItems_ofItems ih]
    rfl
  | object ha _ ih =>
    rw [Tree.ofJson, Tree.toJson, toEntries_ofEntries (m := []) ha ih]
    rfl

/-- The ordered values are those that can be read. -/
theorem ordered_iff {j : Json} : j.Ordered ↔ ∃ t : Tree, t.toJson = .ok j :=
  ⟨fun h => ⟨.ofJson j, toJson_ofJson h⟩, fun ⟨t, h⟩ => ordered_of_toJson t h⟩

private theorem any_ofValue {j : Json} (h : j.Ordered) : Reader.any.ofValue j = .ok j := by
  rw [Reader.ofValue, Reader.any, toJson_ofJson h]

end Json

/-- The values of fields that are taken one after the other, and what is left. An error ends it. -/
def Fields.takeAll (f : Fields) : List String → Except ConversionError (List Json × Fields)
  | [] => .ok ([], f)
  | field :: rest =>
    f.andThen .any field fun j f => (f.takeAll rest).map fun (js, f) => (j :: js, f)

theorem RecordBuilder.putAll_holds {b : RecordBuilder} {before pairs : List (String × Json)}
    (hb : Holds b.record before) (hk : ((before ++ pairs).map Prod.fst).Nodup) :
    ∃ r, b.putAll (pairs.map fun (k, j) => (k, .json j)) = .ok r ∧ Holds r (before ++ pairs) := by
  induction pairs generalizing b before with
  | nil => exact ⟨b.record, rfl, by rwa [List.append_nil]⟩
  | cons p pairs ih =>
    obtain ⟨k, j⟩ := p
    have hn : k ∉ before.map Prod.fst := by
      rw [List.map_append, List.nodup_append] at hk
      exact fun hm => hk.2.2 k hm k List.mem_cons_self rfl
    rw [List.append_cons] at hk ⊢
    exact ih (b := { b with record := SortedMap.insert k j b.record }) (hb.insert hn) hk

private theorem Fields.takeAll_of_holds {f : Fields} {pairs : List (String × Json)}
    (hf : Holds f.record pairs) (hk : (pairs.map Prod.fst).Nodup)
    (hj : ∀ p ∈ pairs, p.2.Ordered) :
    f.takeAll (pairs.map Prod.fst) = .ok (pairs.map Prod.snd, { f with record := [] }) := by
  induction pairs generalizing f with
  | nil =>
    obtain ⟨type, r⟩ := f
    rw [show r = [] from hf.eq_nil]
    rfl
  | cons p pairs ih =>
    obtain ⟨k, j⟩ := p
    obtain ⟨hn, hk⟩ := List.nodup_cons.mp hk
    obtain ⟨ho, hj⟩ := List.forall_mem_cons.mp hj
    have hv : f.value k = j := by
      rw [Fields.value, (hf.get?_eq_some_iff k j).mpr List.mem_cons_self]
      rfl
    -- the keys to come are others, so their values are still there
    have hrest := ih (f := { f with record := SortedMap.erase k f.record }) (hf.erase hn) hk hj
    simp only [List.map_cons, Fields.takeAll, Fields.andThen, Fields.take, hv,
      Json.any_ofValue ho, hrest]
    rfl

/-- Values that are put into a record under distinct keys are taken from it again, and nothing is
left. -/
theorem Fields.takeAll_putAll (type : String) {keys : List String} {values : List Json}
    (hl : values.length = keys.length) (hk : keys.Nodup) (hv : ∀ j ∈ values, j.Ordered) :
    ∃ r, RecordBuilder.putAll { type } (keys.zip (values.map .json)) = .ok r ∧
      Fields.takeAll ⟨type, r⟩ keys = .ok (values, ⟨type, []⟩) := by
  have hfst : (keys.zip values).map Prod.fst = keys := List.map_fst_zip (by omega)
  have hsnd : (keys.zip values).map Prod.snd = values := List.map_snd_zip (by omega)
  have hnodup : (([] ++ keys.zip values).map Prod.fst).Nodup := by rwa [List.nil_append, hfst]
  obtain ⟨r, hput, hr⟩ := RecordBuilder.putAll_holds (b := { type }) SortedMap.holds_nil hnodup
  rw [List.nil_append] at hr
  have htake := Fields.takeAll_of_holds (f := ⟨type, r⟩) hr (by rwa [hfst])
    fun p hp => hv p.2 (List.of_mem_zip hp).2
  rw [hfst, hsnd] at htake
  refine ⟨r, ?_, htake⟩
  rw [List.zip_map_right]
  exact hput

end Switchboard
