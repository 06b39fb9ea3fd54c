import Mathlib.Data.List.Basic
import Switchboard.FileTree
import Switchboard.Proofs.SortedMap

/-! File trees by what kind of thing is at each place. Trees whose directories are in order are the
same if the same kinds of things are at the same places. -/

namespace Switchboard

open SortedMap (get? Ascending)

namespace FileTree

/-- A file with its contents, or a directory whatever is in it. -/
inductive Kind
  | file (contents : String)
  | directory
deriving DecidableEq

/-- What kind of thing a tree is. -/
def kind : FileTree → Kind
  | .file contents => .file contents
  | .directory _ => .directory

/-- What kind of thing is at a place. -/
def kind? (p : Place) (t : FileTree) : Option Kind := (t.at? p).map kind

variable {t : FileTree} {p q : Place}

theorem kind?_nil (t : FileTree) : kind? [] t = some t.kind := by
  cases t <;> rfl

private theorem kind?_cons (name : String) (p : Place) (entries : SortedMap FileTree) :
    kind? (name :: p) (.directory entries) = (get? name entries).bind (kind? p) := by
  rw [kind?, at?]
  cases get? name entries <;> rfl

private theorem at?_append (t : FileTree) (p q : Place) :
    t.at? (p ++ q) = (t.at? p).bind (at? q) := by
  induction p generalizing t with
  | nil => cases t <;> rfl
  | cons name p ih =>
    cases t with
    | file contents => rfl
    | directory entries =>
      rw [List.cons_append, at?, at?]
      cases get? name entries with
      | none => rfl
      | some inner => exact ih inner

theorem kind?_append (t : FileTree) (p q : Place) :
    kind? (p ++ q) t = (t.at? p).bind (kind? q) := by
  rw [kind?, at?_append, Option.map_bind]
  rfl

theorem kind?_eq_directory_iff :
    kind? p t = some .directory ↔ ∃ entries, t.at? p = some (.directory entries) := by
  rw [kind?, Option.map_eq_some_iff]
  constructor
  · rintro ⟨inner, hi, hk⟩
    cases inner with
    | file contents => cases hk
    | directory entries => exact ⟨entries, hi⟩
  · rintro ⟨entries, hi⟩
    exact ⟨_, hi, rfl⟩

/-- The names in a directory are those under which something is there. -/
theorem mem_keys_iff {entries : SortedMap FileTree} (hd : t.at? p = some (.directory entries))
    (name : String) : name ∈ SortedMap.keys entries ↔ kind? (p ++ [name]) t ≠ none := by
  rw [kind?_append, hd, Option.bind_some, kind?_cons, ← SortedMap.isSome_get?_iff]
  cases get? name entries with
  | none => simp
  | some inner => simp [kind?_nil]

theorem kind?_eq_file_iff {contents : String} :
    kind? p t = some (.file contents) ↔ t.at? p = some (.file contents) := by
  rw [kind?, Option.map_eq_some_iff]
  constructor
  · rintro ⟨inner, hi, hk⟩
    cases inner with
    | file c =>
      cases hk
      exact hi
    | directory entries => cases hk
  · intro hi
    exact ⟨_, hi, rfl⟩

/-- Only directories have something in them. -/
theorem directory_of_above (hq : q ≠ []) (h : kind? (p ++ q) t ≠ none) :
    kind? p t = some .directory := by
  rw [kind?_append] at h
  obtain ⟨name, rest, rfl⟩ := List.exists_cons_of_ne_nil hq
  rw [kind?]
  cases ht : t.at? p with
  | none =>
    rw [ht] at h
    exact absurd rfl h
  | some inner =>
    rw [ht] at h
    cases inner with
    | file contents => exact absurd rfl h
    | directory entries => rfl

theorem kind?_append_eq_none (h : kind? p t = none) (q : Place) : kind? (p ++ q) t = none := by
  by_cases hq : q = []
  · rw [hq, List.append_nil]
    exact h
  · refine Decidable.byContradiction fun hne => ?_
    rw [directory_of_above hq hne] at h
    cases h

/-! ## Order -/

/-- Whether every directory has its entries in ascending order, each once. -/
def Ordered (t : FileTree) : Prop :=
  ∀ p entries, t.at? p = some (.directory entries) → Ascending entries

theorem ordered_empty : Ordered empty := by
  intro p entries h
  cases p with
  | nil =>
    cases h
    exact SortedMap.ascending_nil
  | cons name p => cases h

theorem ordered_file (contents : String) : Ordered (.file contents) := by
  intro p entries h
  cases p with
  | nil => cases h
  | cons name p => cases h

theorem ordered_directory {entries : SortedMap FileTree} :
    Ordered (.directory entries) ↔
      Ascending entries ∧ ∀ name inner, get? name entries = some inner → Ordered inner := by
  constructor
  · intro h
    refine ⟨h [] entries rfl, fun name inner hn p found hp => h (name :: p) found ?_⟩
    rw [at?, hn]
    exact hp
  · rintro ⟨ha, hi⟩ p found hp
    cases p with
    | nil =>
      cases hp
      exact ha
    | cons name p =>
      rw [at?] at hp
      cases hn : get? name entries with
      | none =>
        rw [hn] at hp
        cases hp
      | some inner =>
        rw [hn] at hp
        exact hi name inner hn p found hp

theorem Ordered.at? (h : Ordered t) {inner : FileTree} (hp : t.at? p = some inner) :
    Ordered inner := by
  intro q entries hq
  refine h (p ++ q) entries ?_
  rw [at?_append, hp]
  exact hq

private theorem ordered_insert {entries : SortedMap FileTree} (h : Ordered (.directory entries))
    {inner : FileTree} (hi : Ordered inner) (name : String) :
    Ordered (.directory (SortedMap.insert name inner entries)) := by
  obtain ⟨ha, hall⟩ := ordered_directory.mp h
  refine ordered_directory.mpr ⟨SortedMap.ascending_insert ha, fun other found hf => ?_⟩
  rw [SortedMap.get?_insert] at hf
  split at hf
  · cases hf
    exact hi
  · exact hall other found hf

private theorem ordered_erase {entries : SortedMap FileTree} (h : Ordered (.directory entries))
    (name : String) : Ordered (.directory (SortedMap.erase name entries)) := by
  obtain ⟨ha, hall⟩ := ordered_directory.mp h
  refine ordered_directory.mpr ⟨SortedMap.ascending_erase ha, fun other found hf => ?_⟩
  rw [SortedMap.get?_erase ha] at hf
  split at hf
  · cases hf
  · exact hall other found hf

private theorem set_cons_cons (new : Option FileTree) (name next : String) (rest : Place)
    (entries : SortedMap FileTree) :
    set new (name :: next :: rest) (.directory entries) =
      match get? name entries with
      | some inner => .directory (SortedMap.insert name (set new (next :: rest) inner) entries)
      | none => .directory entries := rfl

theorem ordered_set {new : Option FileTree} (hn : ∀ n ∈ new, Ordered n) (q : Place)
    (h : Ordered t) : Ordered (t.set new q) := by
  induction q generalizing t with
  | nil =>
    cases new with
    | none => exact h
    | some n => exact hn n rfl
  | cons name rest ih =>
    cases t with
    | file contents => exact h
    | directory entries =>
      cases rest with
      | nil =>
        cases new with
        | none => exact ordered_erase h name
        | some n => exact ordered_insert h (hn n rfl) name
      | cons next rest =>
        rw [set_cons_cons]
        cases hg : get? name entries with
        | none => exact h
        | some inner => exact ordered_insert h (ih ((ordered_directory.mp h).2 name inner hg)) name

/-! ## Changes -/

/-- What is at a place is replaced by something else or taken away, with all below it, and the rest
stays. -/
theorem kind?_set (h : Ordered t) (new : Option FileTree) (hq : q ≠ [])
    (hd : kind? q.dropLast t = some .directory) (p : Place) :
    kind? p (t.set new q) =
      if q <+: p then new.bind (kind? (p.drop q.length)) else kind? p t := by
  induction q generalizing t p with
  | nil => exact absurd rfl hq
  | cons name rest ih =>
    cases t with
    | file contents =>
      cases rest with
      | nil => cases hd
      | cons next rest => cases hd
    | directory entries =>
      cases p with
      | nil =>
        rw [if_neg (by simp), kind?_nil]
        cases rest with
        | nil => cases new <;> rfl
        | cons next rest =>
          rw [set_cons_cons]
          cases get? name entries <;> rfl
      | cons other p =>
        obtain ⟨ha, hall⟩ := ordered_directory.mp h
        simp only [List.cons_prefix_cons]
        cases rest with
        | nil =>
          cases new with
          | none =>
            rw [set, setEntry, kind?_cons, SortedMap.get?_erase ha, kind?_cons]
            by_cases hn : other = name
            · simp [hn]
            · simp [hn, Ne.symm hn]
          | some n =>
            rw [set, setEntry, kind?_cons, SortedMap.get?_insert, kind?_cons]
            by_cases hn : other = name
            · simp [hn]
            · simp [hn, Ne.symm hn]
        | cons next rest =>
          rw [List.dropLast_cons_cons, kind?_cons] at hd
          obtain ⟨inner, hi, hin⟩ := Option.bind_eq_some_iff.mp hd
          rw [set_cons_cons, hi, kind?_cons, SortedMap.get?_insert, kind?_cons]
          by_cases hn : other = name
          · subst hn
            rw [if_pos rfl, Option.bind_some, ih (hall other inner hi) (by simp) hin p, hi]
            simp
          · rw [if_neg hn, if_neg fun hc => hn hc.1.symm]

/-- The same for something that has nothing in it, put where no directory is. -/
theorem kind?_set_leaf (h : Ordered t) {new : Option FileTree}
    (hl : ∀ name p, new.bind (kind? (name :: p)) = none) (hq : q ≠ [])
    (hd : kind? q.dropLast t = some .directory) (hn : kind? q t ≠ some .directory) (p : Place) :
    kind? p (t.set new q) = if p = q then new.map kind else kind? p t := by
  rw [kind?_set h new hq hd]
  by_cases hp : p = q
  · subst hp
    rw [if_pos (List.prefix_refl p), if_pos rfl, List.drop_length]
    cases new with
    | none => rfl
    | some n => exact kind?_nil n
  · rw [if_neg hp]
    split
    · rename_i hqp
      obtain ⟨r, rfl⟩ := hqp
      have hr : r ≠ [] := fun he => hp (by rw [he, List.append_nil])
      obtain ⟨name, r, rfl⟩ := List.exists_cons_of_ne_nil hr
      rw [List.drop_left, hl]
      exact (Decidable.byContradiction fun hne =>
        hn (directory_of_above hr (Ne.symm hne)))
    · rfl

private theorem sizeOf_lt_of_get? {name : String} {entries : SortedMap FileTree} {inner : FileTree}
    (h : get? name entries = some inner) : sizeOf inner < sizeOf (directory entries) := by
  have hm := List.sizeOf_lt_of_mem (SortedMap.mem_of_get? h)
  rw [Prod.mk.sizeOf_spec] at hm
  rw [directory.sizeOf_spec]
  omega

/-- The kinds of things at all places make up a tree. -/
theorem ext {t u : FileTree} (ht : Ordered t) (hu : Ordered u)
    (h : ∀ p, kind? p t = kind? p u) : t = u := by
  have hk := h []
  rw [kind?_nil, kind?_nil, Option.some_inj] at hk
  cases t with
  | file contents =>
    cases u with
    | file other =>
      cases hk
      rfl
    | directory entries => cases hk
  | directory entries =>
    cases u with
    | file contents => cases hk
    | directory others =>
      obtain ⟨ha, hall⟩ := ordered_directory.mp ht
      obtain ⟨hb, hbll⟩ := ordered_directory.mp hu
      refine congrArg directory (SortedMap.ext ha hb fun name => ?_)
      have hn : ∀ p, (get? name entries).bind (kind? p) = (get? name others).bind (kind? p) := by
        intro p
        rw [← kind?_cons, ← kind?_cons]
        exact h (name :: p)
      cases hg : get? name entries with
      | none =>
        have hnil := hn []
        cases ho : get? name others with
        | none => rfl
        | some other =>
          rw [hg, ho, Option.bind_some, kind?_nil] at hnil
          cases hnil
      | some inner =>
        have hnil := hn []
        cases ho : get? name others with
        | none =>
          rw [hg, ho, Option.bind_some, kind?_nil] at hnil
          cases hnil
        | some other =>
          rw [ext (hall name inner hg) (hbll name other ho) fun p => ?_]
          have hp := hn p
          rw [hg, ho] at hp
          exact hp
termination_by sizeOf t
decreasing_by
  subst_vars
  exact sizeOf_lt_of_get? hg

end FileTree

end Switchboard
