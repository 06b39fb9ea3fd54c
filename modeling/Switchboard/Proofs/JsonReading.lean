import Switchboard.Json.Reader
import Switchboard.Proofs.Traversal

/-! What readers make of JSON values. A reader that makes the same of a value in text and of one at
hand is known by the value alone. -/

namespace Switchboard.Json

private theorem Tree.ofItems_eq_map (items : List Json) : ofItems items = items.map ofJson := by
  induction items with
  | nil => rfl
  | cons j rest ih => rw [ofItems, ih, List.map_cons]

private theorem Tree.ofEntries_eq_map (entries : List (String × Json)) :
    ofEntries entries = entries.map fun e => (.string (.ok e.1), ofJson e.2) := by
  induction entries with
  | nil => rfl
  | cons e rest ih =>
    obtain ⟨k, j⟩ := e
    rw [ofEntries, ih, List.map_cons]

namespace Reader

variable {α β σ : Type} {read : Reader α}

/-- That a reader makes something of a value, wherever it is read from. -/
def Reads (read : Reader α) (j : Json) (a : α) : Prop := ∀ o, read o (.ofJson j) = .ok a

theorem Reads.ofValue {j : Json} {a : α} (h : Reads read j a) : read.ofValue j = .ok a := by
  rw [Reader.ofValue, h .value]

theorem reads_string (s : String) : Reads string (.string s) s := fun _ => rfl

theorem reads_bool (b : Bool) : Reads bool (.bool b) b := fun _ => rfl

theorem reads_integer (name : String) {low high n : Int} (h : low ≤ n ∧ n ≤ high) :
    Reads (integer name low high) (.int n) n := by
  intro o
  rw [Tree.ofJson, integer, if_pos h]

theorem reads_size {n : Nat} (h : (n : Int) ≤ Bounds.unsignedGreatest) :
    Reads size (.nat n) n := by
  intro o
  rw [size, nat, reads_integer "usize" ⟨Int.natCast_nonneg n, h⟩ o]
  rfl

theorem reads_null (read : Reader α) : Reads (option read) .null none := fun _ => rfl

theorem reads_some {j : Json} {a : α} (h : Reads read j a) (hn : Tree.ofJson j ≠ .null) :
    Reads (option read) j (some a) := by
  intro o
  rw [option, h o]
  · rfl
  · exact hn

theorem reads_list {write : β → Json} {f : β → α} {bs : List β}
    (h : ∀ b ∈ bs, Reads read (write b) (f b)) :
    Reads (list read) (.array (bs.map write)) (bs.map f) := by
  intro o
  have hm : (Tree.ofItems (bs.map write)).mapM (read o) = .ok (bs.map f) := by
    rw [Traversal.mapM_eq_ok_iff, Tree.ofItems_eq_map, List.map_map, List.forall₂_map_left_iff,
      List.forall₂_map_right_iff, List.forall₂_same]
    exact fun b hb => h b hb o
  rw [Tree.ofJson, list, hm]
  rfl

theorem reads_strings (texts : List String) : Reads (list string) (.strings texts) texts := by
  have h := reads_list (f := id) fun (s : String) (_ : s ∈ texts) => reads_string s
  rwa [List.map_id] at h

/-- A variant with a value is the one entry of an object. -/
theorem variant_object (choose : Origin → String → Payload → Except Problem α)
    (o : Origin) (name : String) (j : Json) :
    variant choose o (.ofJson (.object [(name, j)])) = choose o name (some (.ofJson j)) := by
  cases o with
  | text =>
    show (do let a ← choose .text name _; closeAfter .text 1 _ _; return a) = _
    cases choose .text name (some (Tree.ofJson j)) <;> rfl
  | value =>
    show (do let a ← choose .value name _; close _; return a) = _
    cases choose .value name (some (Tree.ofJson j)) <;> rfl

/-- Entries are taken one after the other, each with its key and its value. -/
theorem entries_eq_foldlM (step : σ → String → Tree → Except Problem σ) (start : σ)
    (es : List (String × Json)) :
    Reader.entries step start (Tree.ofEntries es) .closed =
      es.foldlM (fun s e => step s e.1 (.ofJson e.2)) start := by
  have hf : (Tree.ofEntries es).foldlM (fun s e => do step s (← key e.1) e.2) start =
      es.foldlM (fun s e => step s e.1 (.ofJson e.2)) start := by
    rw [Tree.ofEntries_eq_map, List.foldlM_map]
    rfl
  rw [entries, hf]
  cases es.foldlM (fun s e => step s e.1 (.ofJson e.2)) start <;> rfl

end Reader

end Switchboard.Json
