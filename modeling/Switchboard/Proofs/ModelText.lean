import Mathlib.Data.List.Induction
import Switchboard.Schema.Model
import Switchboard.Proofs.JsonText
import Switchboard.Proofs.SortedMap

/-! Models as text. What is read of a model's text is the model, but for its paths: each is made from
its text once more, so that two types of the table may come to be one. -/

namespace Switchboard

open Json (Reader Whole)
open Json.Reader (Reads)
open SortedMap (Ascending)

namespace Constructor

/-- That positions are counted in 64 bits. -/
def Counted : Constructor → Prop
  | .tuple n => (n : Int) ≤ Bounds.unsignedGreatest
  | .named _ | .unit => True

private theorem reads {c : Constructor} (h : c.Counted) : Reads reader c.toJson c := by
  intro o
  cases c with
  | named fields =>
    rw [toJson, reader, Reader.variant_object]
    simp only [Reader.valueVariant, Reader.reads_strings fields o]
    rfl
  | tuple n =>
    rw [toJson, reader, Reader.variant_object]
    simp only [Reader.valueVariant, Reader.reads_size h o]
    rfl
  | unit => cases o <;> rfl

private theorem whole_toJson {c : Constructor} (h : c.Counted) : Whole c.toJson := by
  cases c with
  | named fields =>
    exact .object _ fun e he => by rw [List.mem_singleton.mp he]; exact Json.whole_strings fields
  | tuple n =>
    have hn : Json.keepsInt n = true := by
      rw [Json.keepsInt, Bool.and_eq_true, decide_eq_true_eq, decide_eq_true_eq]
      exact ⟨Int.le_trans (by decide) (Int.natCast_nonneg n), h⟩
    exact .object _ fun e he => by rw [List.mem_singleton.mp he]; exact .int n hn
  | unit => exact .string "unit"

end Constructor

namespace TypeTable

private theorem reads {table : TypeTable} (h : ∀ e ∈ table, e.2.Counted) :
    Reads reader table.toJson (ofList table) := by
  intro o
  have hd : ∀ start : TypeTable, (table.map fun e => (e.1, e.2.toJson)).foldlM
      (fun t e => do return define t (.of e.1) (← Constructor.reader o (.ofJson e.2))) start =
        (.ok (table.foldl (fun t e => t.define (.of e.1) e.2) start) : Except Json.Problem _) := by
    induction table with
    | nil => exact fun start => rfl
    | cons e rest ih =>
      intro start
      rw [List.map_cons, List.foldlM_cons, Constructor.reads (h e List.mem_cons_self) o]
      exact ih (fun e he => h e (List.mem_cons_of_mem _ he)) _
  rw [toJson, Json.Tree.ofJson, reader]
  simp only [Reader.entries_eq_foldlM]
  exact hd []

private theorem whole_toJson {table : TypeTable} (h : ∀ e ∈ table, e.2.Counted) :
    Whole table.toJson := by
  refine .object _ fun e he => ?_
  obtain ⟨⟨text, c⟩, hm, rfl⟩ := List.mem_map.mp he
  exact Constructor.whole_toJson (h _ hm)

private theorem ofList_append (pairs : List (String × Constructor)) (s : String) (c : Constructor) :
    ofList (pairs ++ [(s, c)]) = (ofList pairs).define (.of s) c := by
  rw [ofList, List.foldl_append]
  rfl

private theorem ascending_ofList (pairs : List (String × Constructor)) :
    Ascending (ofList pairs) := by
  induction pairs using List.reverseRecOn with
  | nil => exact SortedMap.ascending_nil
  | append_singleton pairs e ih =>
    rw [ofList_append]
    exact SortedMap.ascending_insert ih

/-- Of the texts that name a type, the last in order has its constructor. -/
theorem constructor?_ofList {table : TypeTable} (h : Ascending table) (q : SchemaPath)
    (c : Constructor) : (ofList table).constructor? q = some c ↔
      ∃ s, (s, c) ∈ table ∧ SchemaPath.of s = q ∧
        ∀ t ∈ SortedMap.keys table, SchemaPath.of t = q → ¬ s < t := by
  induction table using List.reverseRecOn with
  | nil => simp [ofList, constructor?, SortedMap.get?]
  | append_singleton table e ih =>
    obtain ⟨s, d⟩ := e
    obtain ⟨ht, hs⟩ := SortedMap.ascending_append.mp h
    have hk : ∀ t ∈ SortedMap.keys (table ++ [(s, d)]), t ∈ SortedMap.keys table ∨ t = s := by
      simp [SortedMap.keys]
    rw [ofList_append, define, constructor?, SortedMap.get?_insert]
    by_cases hq : SchemaPath.of s = q
    · -- the text that is put in last is the greatest of all
      rw [if_pos (congrArg SchemaPath.text hq.symm)]
      constructor
      · rintro ⟨⟩
        refine ⟨s, List.mem_append_right _ List.mem_cons_self, hq, fun t hm _ => ?_⟩
        rcases hk t hm with hm | rfl
        · exact String.lt_asymm (hs t hm)
        · exact String.lt_irrefl t
      · rintro ⟨t, hm, -, hlast⟩
        rcases List.mem_append.mp hm with hm | hm
        · exact absurd (hs t (List.mem_map_of_mem hm)) (hlast s (by simp [SortedMap.keys]) hq)
        · cases List.mem_singleton.mp hm
          rfl
    · -- it names another type, so nothing changes for this one
      rw [if_neg fun he => hq (SchemaPath.text_inj.mp he.symm)]
      refine (ih ht).trans ⟨?_, ?_⟩
      · rintro ⟨t, hm, ht, hlast⟩
        refine ⟨t, List.mem_append_left _ hm, ht, fun u hu he => ?_⟩
        rcases hk u hu with hu | rfl
        · exact hlast u hu he
        · exact absurd he hq
      · rintro ⟨t, hm, ht, hlast⟩
        rcases List.mem_append.mp hm with hm | hm
        · exact ⟨t, hm, ht, fun u hu => hlast u (by simp_all [SortedMap.keys])⟩
        · cases List.mem_singleton.mp hm
          exact absurd ht hq

/-- A table whose texts are as paths are is made again from its texts. -/
theorem ofList_eq {table : TypeTable} (h : Ascending table)
    (hp : ∀ s ∈ SortedMap.keys table, (SchemaPath.of s).text = s) : ofList table = table := by
  induction table using List.reverseRecOn with
  | nil => rfl
  | append_singleton table e ih =>
    obtain ⟨s, d⟩ := e
    obtain ⟨ht, hs⟩ := SortedMap.ascending_append.mp h
    have hk : ∀ t ∈ SortedMap.keys table, t ∈ SortedMap.keys (table ++ [(s, d)]) := by
      simp +contextual [SortedMap.keys]
    have he : (SchemaPath.of s).text = s := hp s (by simp [SortedMap.keys])
    rw [ofList_append, define, he, ih ht fun t hm => hp t (hk t hm), SortedMap.insert_of_lt hs]

end TypeTable

namespace Group

/-- The group with each claim made from its text once more. -/
def normalized (g : Group) : Group := { g with claims := g.claims.map fun p => .of p.text }

private theorem normalized_eq {g : Group} (h : ∀ p ∈ g.claims, SchemaPath.of p.text = p) :
    g.normalized = g := by
  rw [normalized, List.map_congr_left h, List.map_id']

private theorem reads_claims (claims : List SchemaPath) :
    Reads (Reader.list pathReader) (.strings (claims.map SchemaPath.text))
      (claims.map fun p => .of p.text) := by
  have h : ∀ p ∈ claims, Reads pathReader (.string p.text) (SchemaPath.of p.text) :=
    fun p _ o => rfl
  rw [Json.strings, List.map_map]
  exact Reader.reads_list h

private theorem reads_accessor (accessor : String) :
    Reads (Reader.option .string) (.string accessor) (some accessor) :=
  Reader.reads_some (Reader.reads_string accessor) nofun

/-- The group is read of both its forms. -/
theorem reads_form {g : Group} {j : Json} (h : j = .object g.fields ∨ j = g.toJson) :
    Reads reader j g.normalized := by
  intro o
  obtain ⟨name, accessor, claims⟩ := g
  have hn := Reader.reads_string name o
  have hc := reads_claims claims o
  have ha := fun a => reads_accessor a o
  rcases h with rfl | rfl
  · rw [Json.Tree.ofJson, reader]
    simp only [Reader.entries_eq_foldlM, fields]
    cases accessor <;>
      simp [Reader.field, Reader.required, normalized, bind, Except.bind, pure, Except.pure, *]
  · rw [toJson, Json.Tree.ofJson, reader]
    simp only [Reader.entries_eq_foldlM]
    cases accessor <;>
      simp [Reader.field, Reader.required, normalized, bind, Except.bind, pure, Except.pure, *]

private theorem whole_form {g : Group} {j : Json} (h : j = .object g.fields ∨ j = g.toJson) :
    Whole j := by
  obtain ⟨name, accessor, claims⟩ := g
  have hc := Json.whole_strings (claims.map SchemaPath.text)
  cases accessor with
  | none =>
    rcases h with rfl | rfl
    all_goals exact .object _ (by simp [fields, Whole.string, hc])
  | some accessor =>
    rcases h with rfl | rfl
    all_goals exact .object _ (by simp [fields, Whole.string, hc])

end Group

namespace Model

/-- The model with each path made from its text once more. -/
def normalized (m : Model) : Model := ⟨m.groups.map Group.normalized, .ofList m.types⟩

variable {m : Model}

/-- A model as JSON, whatever form its groups are in. -/
def form (write : Group → Json) (m : Model) : Json :=
  .object (("groups", .array (m.groups.map write)) ::
    (if m.types.isEmpty then [] else [("types", TypeTable.toJson m.types)]))

private theorem reads_form {write : Group → Json}
    (hw : ∀ g, Reads Group.reader (write g) g.normalized)
    (h : ∀ e ∈ m.types, e.2.Counted) : Reads reader (form write m) m.normalized := by
  intro o
  have hg := Reader.reads_list (fun g (_ : g ∈ m.groups) => hw g) o
  have ht := TypeTable.reads h o
  rw [form, Json.Tree.ofJson, reader]
  simp only [Reader.entries_eq_foldlM]
  obtain ⟨groups, types⟩ := m
  cases types with
  | nil =>
    simp [Reader.field, Reader.required, normalized, bind, Except.bind, pure, Except.pure, hg]
    rfl
  | cons e types =>
    simp [Reader.field, Reader.required, normalized, bind, Except.bind, pure, Except.pure, hg, ht]

private theorem whole_form {write : Group → Json} (hw : ∀ g, Whole (write g))
    (h : ∀ e ∈ m.types, e.2.Counted) : Whole (form write m) := by
  have hg : Whole (.array (m.groups.map write)) := .array _ fun j hj => by
    obtain ⟨g, -, rfl⟩ := List.mem_map.mp hj
    exact hw g
  refine .object _ (List.forall_mem_cons.mpr ⟨hg, ?_⟩)
  split
  · exact List.forall_mem_nil _
  · exact List.forall_mem_singleton.mpr (TypeTable.whole_toJson h)

/-- Either text of a model is read as the model, but for its paths. Of texts that name one type, the
last in order has its constructor. Nothing changes where all texts are as paths are. -/
theorem ofText_toText (hs : Ascending m.types) (h : ∀ e ∈ m.types, e.2.Counted) :
    ofText m.toText = .ok m.normalized ∧ ofText m.toJson.print = .ok m.normalized ∧
      Ascending m.normalized.types ∧
      (∀ q c, m.normalized.types.constructor? q = some c ↔
        ∃ s, (s, c) ∈ m.types ∧ SchemaPath.of s = q ∧
          ∀ t ∈ SortedMap.keys m.types, SchemaPath.of t = q → ¬ s < t) ∧
      ((∀ s ∈ SortedMap.keys m.types, (SchemaPath.of s).text = s) →
        m.normalized.types = m.types ∧
          ((∀ g ∈ m.groups, ∀ p ∈ g.claims, SchemaPath.of p.text = p) → m.normalized = m)) := by
  have htext : Json.print (form (fun g => .object g.fields) m) = m.toText := rfl
  have hjson : form Group.toJson m = m.toJson := rfl
  refine ⟨?_, ?_, TypeTable.ascending_ofList _, TypeTable.constructor?_ofList hs, fun hp => ?_⟩
  · rw [← htext]
    exact Reader.ofText_print (reads_form (fun g => Group.reads_form (.inl rfl)) h)
      (whole_form (fun g => Group.whole_form (.inl rfl)) h)
  · rw [← hjson]
    exact Reader.ofText_print (reads_form (fun g => Group.reads_form (.inr rfl)) h)
      (whole_form (fun g => Group.whole_form (.inr rfl)) h)
  · have ht : m.normalized.types = m.types := TypeTable.ofList_eq hs hp
    refine ⟨ht, fun hg => ?_⟩
    have hm : m.groups.map Group.normalized = m.groups := by
      rw [List.map_congr_left fun g hm => Group.normalized_eq (hg g hm), List.map_id']
    show (⟨m.groups.map Group.normalized, m.normalized.types⟩ : Model) = m
    rw [hm, ht]

example : toText ⟨[⟨"a", none, []⟩], []⟩ =
    "\x7b\"groups\":[\x7b\"name\":\"a\",\"schemas\":[]\x7d]\x7d" := by decide +kernel

/-- A model with a group that has no accessor, one that has, and two types that come to be one. -/
def merging : Model where
  groups := [⟨"a\"\\\n\x01é", none, [⟨" ::x"⟩]⟩, ⟨"b", some "", []⟩]
  types := [(" c", .tuple 18446744073709551615), ("c", .named ["d"]), ("e", .unit)]

theorem ofText_toText_merging :
    Ascending merging.types ∧ (∀ e ∈ merging.types, e.2.Counted) ∧
      ofText merging.toText = .ok
        ⟨[⟨"a\"\\\n\x01é", none, [⟨"x"⟩]⟩, ⟨"b", some "", []⟩],
          [("c", .named ["d"]), ("e", .unit)]⟩ := by
  have hs : Ascending merging.types := by
    show (SortedMap.keys merging.types).Pairwise (· < ·)
    decide +kernel
  have hc : ∀ e ∈ merging.types, e.2.Counted := by
    simp [merging, Constructor.Counted, Bounds.unsignedGreatest]
  refine ⟨hs, hc, (ofText_toText hs hc).1.trans ?_⟩
  decide +kernel

end Model

end Switchboard
