import Switchboard.Proofs.Messages
import Switchboard.Schema.Validation

/-! Validation. A tree of errors is empty just if nothing was put into it, so a model is valid just
if there is no complaint about its groups, their keys or its types. -/

namespace Switchboard

namespace ErrorTree

variable {α : Type}

/-- Messages that are put under a key leave a tree empty only if there are none. -/
theorem isEmpty_mergeAt (t : ErrorTree α) (key : String) (messages : List α) :
    (t.mergeAt key (.node messages [])).isEmpty = true ↔ t.isEmpty = true ∧ messages = [] := by
  cases messages with
  | nil => simp [mergeAt, appendChildren, isEmpty, allEmpty]
  | cons m rest =>
    simp only [mergeAt, appendChildren, isEmpty, List.isEmpty_cons, Bool.false_and,
      Bool.false_eq_true, if_false, setChild, reduceCtorEq, and_false, iff_false,
      Bool.and_eq_true, not_and]
    intro _ h
    have ht := allEmpty_iff.mp h _ (SortedMap.mem_of_get? (SortedMap.get?_insert_self key _ _))
    simp [append, appendChildren, isEmpty] at ht

private theorem isEmpty_foldl_mergeAt {β : Type} (key : β → String) (messages : β → List α)
    (bs : List β) (t : ErrorTree α) :
    (bs.foldl (fun t b => t.mergeAt (key b) (.node (messages b) [])) t).isEmpty = true ↔
      t.isEmpty = true ∧ ∀ b ∈ bs, messages b = [] := by
  induction bs generalizing t with
  | nil => simp
  | cons b rest ih =>
    rw [List.foldl_cons, ih, isEmpty_mergeAt, List.forall_mem_cons, and_assoc]

private theorem isEmpty_foldl_add (ms : List α) (t : ErrorTree α) :
    (ms.foldl (fun t m => t.add m) t).isEmpty = true ↔ t.isEmpty = true ∧ ms = [] := by
  induction ms generalizing t with
  | nil => simp
  | cons m rest ih => simp [ih, isEmpty_add]

end ErrorTree

namespace Naming

theorem exists_identifier_of_fault {text : String} (h : identifierFault? text = none) :
    ∃ w, Source.identifier? text = some w := by
  unfold identifierFault? at h
  split at h
  · cases h
  · split at h
    · rename_i hs
      exact Option.isSome_iff_exists.mp hs
    · cases h

theorem exists_path_of_fault {text : String} (h : pathFault? text = none) :
    ∃ ts, Source.path? text = some ts := by
  unfold pathFault? at h
  split at h
  · rename_i hs
    exact Option.isSome_iff_exists.mp hs
  · cases h

end Naming

namespace Group

/-- The names that are made from a group without a complaint are identifiers. -/
theorem exists_identifiers {g : Group} (h : g.complaints = []) :
    (∃ w, Source.identifier? g.accessorName = some w) ∧
      (∃ w, Source.identifier? g.moduleName = some w) ∧
      ∃ w, Source.identifier? g.converterName = some w := by
  unfold complaints at h
  split at h
  · cases h
  · simp only [List.append_eq_nil_iff, Option.toList_eq_nil_iff, Option.map_eq_none_iff] at h
    obtain ⟨⟨⟨ha, hm⟩, hc⟩, _⟩ := h
    exact ⟨Naming.exists_identifier_of_fault ha, Naming.exists_identifier_of_fault hm,
      Naming.exists_identifier_of_fault hc⟩

private theorem not_isBlank_of_complaints {g : Group} (h : g.complaints = []) :
    g.isBlank = false := by
  unfold complaints at h
  split at h
  · cases h
  · rename_i hb
    exact eq_false_of_ne_true hb

end Group

/-- Nothing is told of a key just if no two groups have the same and none has one seen before. -/
theorem duplicates_eq_nil_iff (key : GroupKey) (seen : SortedMap String) (groups : List Group) :
    duplicates key seen groups = [] ↔
      (groups.map key.of).Nodup ∧ ∀ g ∈ groups, SortedMap.get? (key.of g) seen = none := by
  induction groups generalizing seen with
  | nil => simp [duplicates]
  | cons g rest ih =>
    simp only [duplicates, List.append_eq_nil_iff, Option.toList_eq_nil_iff,
      Option.map_eq_none_iff, ih, SortedMap.get?_insert, List.map_cons, List.nodup_cons,
      List.forall_mem_cons, List.mem_map, not_exists, not_and]
    constructor
    · rintro ⟨hg, hn, hr⟩
      have hne (h : Group) (hh : h ∈ rest) : key.of h ≠ key.of g := by
        intro he
        have := hr h hh
        rw [if_pos he] at this
        cases this
      refine ⟨⟨hne, hn⟩, hg, fun h hh => ?_⟩
      have := hr h hh
      rwa [if_neg (hne h hh)] at this
    · rintro ⟨⟨hne, hn⟩, hg, hr⟩
      refine ⟨hg, hn, fun h hh => ?_⟩
      rw [if_neg (hne h hh)]
      exact hr h hh

namespace Model

/-- A model is valid just if there is no complaint about a group, a key or a type. -/
theorem isValid_iff (m : Model) : m.isValid = true ↔
    (∀ g ∈ m.groups, g.complaints = []) ∧ keyComplaints m.groups = [] ∧
      ∀ e ∈ m.types.entries, typeComplaints e.1 e.2 = [] := by
  have hg : (groupErrors m.groups).isEmpty = true ↔ ∀ g ∈ m.groups, g.complaints = [] := by
    rw [groupErrors, ErrorTree.isEmpty_foldl_mergeAt (fun x : Group × Nat => x.1.place x.2)
      fun x => x.1.complaints]
    constructor
    · intro h g hg
      obtain ⟨i, hi, rfl⟩ := List.mem_iff_getElem.mp hg
      exact h.2 (m.groups[i], i) (by simp [List.mem_zipIdx_iff_getElem?])
    · intro h
      exact ⟨rfl, fun x hx => h x.1 (List.fst_mem_of_mem_zipIdx hx)⟩
  rw [isValid, errors, ErrorTree.isEmpty_foldl_mergeAt
    (fun e : SchemaPath × Constructor => e.1.text) fun e => typeComplaints e.1 e.2,
    ErrorTree.isEmpty_foldl_add, hg, and_assoc]

/-- No two groups of a valid model have the same key. -/
theorem nodup_keys {m : Model} (h : m.isValid = true) (key : GroupKey) :
    (m.groups.map key.of).Nodup := by
  obtain ⟨hg, hk, _⟩ := (isValid_iff m).mp h
  have hn : (m.groups.filter fun g => !g.isBlank) = m.groups := by
    rw [List.filter_eq_self]
    intro g hm
    rw [Group.not_isBlank_of_complaints (hg g hm), Bool.not_false]
  rw [keyComplaints, hn, List.flatMap_eq_nil_iff] at hk
  exact ((duplicates_eq_nil_iff key [] m.groups).mp (hk key (by cases key <;> simp))).1

end Model

end Switchboard
