import Switchboard.Proofs.Placement

/-! Staging files one after the other: it succeeds if their paths fit together, and then all of them
are there, with the last contents that were written for each. -/

namespace Switchboard

open FileAction (bind_apply)
open FileTree (Kind kind? Ordered Grown)

variable {t u base : FileTree} {p q d : Place} {r : Route} {files : List Place}

/-- Whether neither of two files is on the way to the other. -/
def Apart (p q : Place) : Prop := (p <+: q → p = q) ∧ (q <+: p → q = p)

private theorem Apart.symm (h : Apart p q) : Apart q p := ⟨h.2, h.1⟩

private theorem Apart.refl (p : Place) : Apart p p := ⟨fun _ => rfl, fun _ => rfl⟩

/-- What is at each place when files are below a directory and on the way to them directories. -/
def FileTree.laid (d : Place) (files : List Place) (text : Place → String) (base : FileTree)
    (p : Place) : Option Kind :=
  if ∃ q ∈ files, p = d ++ q then some (.file (text (p.drop d.length)))
  else if ∃ q ∈ files, Route.Passes d q p then some .directory
  else kind? p base

namespace FileTree

variable {text : Place → String}

theorem laid_nil (d : Place) (text : Place → String) (base : FileTree) (p : Place) :
    laid d [] text base p = kind? p base := by
  simp [laid]

theorem laid_append (d : Place) (files : List Place) (text : Place → String) (base : FileTree)
    (q : Place) :
    laid d files text base (d ++ q) =
      if q ∈ files then some (.file (text q))
      else if ∃ a ∈ files, q <+: a then some .directory
      else kind? (d ++ q) base := by
  simp [laid, Route.passes_append]

theorem laid_of_mem (hq : q ∈ files) : laid d files text base (d ++ q) = some (.file (text q)) := by
  rw [laid_append, if_pos hq]

/-- Away from the directory nothing is laid down. -/
theorem laid_of_not_prefix (hp : ¬d <+: p) : laid d files text base p = kind? p base := by
  have hfile : ¬∃ q ∈ files, p = d ++ q := by
    rintro ⟨q, -, rfl⟩
    exact hp (List.prefix_append d q)
  have hpass : ¬∃ q ∈ files, Route.Passes d q p := fun ⟨_, _, h⟩ => hp h.1
  rw [laid, if_neg hfile, if_neg hpass]

/-- Directories stay if no file takes the place of one. -/
theorem laid_directory (hf : ∀ q ∈ files, kind? (d ++ q) base ≠ some .directory)
    (hp : kind? p base = some .directory) : laid d files text base p = some .directory := by
  have hfile : ¬∃ q ∈ files, p = d ++ q := by
    rintro ⟨q, hq, rfl⟩
    exact hf q hq hp
  rw [laid, if_neg hfile, hp]
  split
  · rfl
  · rfl

/-- One file more, which is not on the way to another one and has none on its way. -/
theorem laid_concat {text' : Place → String} (ha : ∀ a ∈ files, Apart a q)
    (ht : ∀ a ∈ files, a ≠ q → text' a = text a)
    (hk : kind? p t = laid d files text base p) :
    FileAction.placed d q (text' q) t p = laid d (files ++ [q]) text' base p := by
  rw [FileAction.placed]
  by_cases hp : p = d ++ q
  · rw [if_pos hp, hp, laid_of_mem (List.mem_append_right files List.mem_cons_self)]
  · have hmem : ∀ a, a ∈ files ++ [q] → p = d ++ a → a ∈ files := by
      intro a ha he
      rcases List.mem_append.mp ha with ha | ha
      · exact ha
      · exact absurd (he.trans (by rw [List.mem_singleton.mp ha])) hp
    rw [if_neg hp]
    by_cases hpass : Route.Passes d q p
    · have hfile : ¬∃ a ∈ files ++ [q], p = d ++ a := by
        rintro ⟨a, hm, rfl⟩
        rw [Route.passes_append] at hpass
        exact hp (by rw [(ha a (hmem a hm rfl)).1 hpass])
      rw [if_pos hpass, laid, if_neg hfile,
        if_pos ⟨q, List.mem_append_right files List.mem_cons_self, hpass⟩]
    · have hsame : (∃ a ∈ files ++ [q], Route.Passes d a p) ↔ ∃ a ∈ files, Route.Passes d a p := by
        constructor
        · rintro ⟨a, hm, hpa⟩
          rcases List.mem_append.mp hm with hm | hm
          · exact ⟨a, hm, hpa⟩
          · rw [List.mem_singleton.mp hm] at hpa
            exact absurd hpa hpass
        · rintro ⟨a, hm, hpa⟩
          exact ⟨a, List.mem_append_left [q] hm, hpa⟩
      rw [if_neg hpass, hk, laid, laid]
      by_cases hfile : ∃ a ∈ files, p = d ++ a
      · obtain ⟨a, hm, rfl⟩ := hfile
        have hne : a ≠ q := fun he => hp (by rw [he])
        rw [if_pos ⟨a, hm, rfl⟩, if_pos ⟨a, List.mem_append_left [q] hm, rfl⟩, List.drop_left,
          ht a hm hne]
      · have hfile' : ¬∃ a ∈ files ++ [q], p = d ++ a := by
          rintro ⟨a, hm, he⟩
          exact hfile ⟨a, hmem a hm he, he⟩
        rw [if_neg hfile, if_neg hfile']
        simp only [hsame]

end FileTree

/-! ## Files that fit together -/

namespace FileSet

/-- The places of outputs below the directory that they are for. -/
def places (outputs : List (String × String)) : List Place :=
  outputs.map fun o => Route.stepsOf o.1

/-- The last contents that are for a place. -/
def lastText (outputs : List (String × String)) (q : Place) : String :=
  outputs.foldl (fun text o => if Route.stepsOf o.1 = q then o.2 else text) ""

/-- Whether outputs can be written below one directory: all paths are proper ones, and none needs a
directory where another one needs a file. -/
def Fits (outputs : List (String × String)) : Prop :=
  (∀ o ∈ outputs, Route.Proper o.1) ∧ (places outputs).Pairwise Apart

variable {done rest outputs : List (String × String)} {o : String × String}

theorem places_append (done rest : List (String × String)) :
    places (done ++ rest) = places done ++ places rest := List.map_append

theorem lastText_concat (done : List (String × String)) (o : String × String) (q : Place) :
    lastText (done ++ [o]) q = if Route.stepsOf o.1 = q then o.2 else lastText done q := by
  rw [lastText, List.foldl_concat]
  rfl

theorem Fits.apart (h : Fits outputs) {p q : Place} (hp : p ∈ places outputs)
    (hq : q ∈ places outputs) : Apart p q :=
  List.Pairwise.forall_of_forall_of_flip (fun q _ => Apart.refl q) h.2 (h.2.imp Apart.symm) hp hq

private theorem Fits.of_append (h : Fits (done ++ rest)) : Fits done := by
  refine ⟨fun o ho => h.1 o (List.mem_append_left rest ho), ?_⟩
  have hp := h.2
  rw [places_append, List.pairwise_append] at hp
  exact hp.1

theorem Fits.ne_nil (h : Fits outputs) {q : Place} (hq : q ∈ places outputs) : q ≠ [] := by
  obtain ⟨o, ho, rfl⟩ := List.mem_map.mp hq
  exact Route.stepsOf_ne_nil (h.1 o ho).1

/-- One output more fits if its path is a proper one and it is apart from the others. -/
theorem fits_concat (h : Fits done) :
    Fits (done ++ [o]) ↔
      Route.Proper o.1 ∧ ∀ a ∈ places done, Apart a (Route.stepsOf o.1) := by
  constructor
  · intro hf
    refine ⟨hf.1 o (by simp), fun a ha => hf.apart ?_ ?_⟩
    · rw [places_append]
      exact List.mem_append_left _ ha
    · rw [places_append]
      exact List.mem_append_right _ List.mem_cons_self
  · rintro ⟨hp, ha⟩
    refine ⟨?_, ?_⟩
    · intro x hx
      rcases List.mem_append.mp hx with hx | hx
      · exact h.1 x hx
      · rw [List.mem_singleton.mp hx]
        exact hp
    · rw [places_append, List.pairwise_append]
      refine ⟨h.2, List.pairwise_singleton _ _, ?_⟩
      intro x hx y hy
      rw [List.mem_singleton.mp hy]
      exact ha x hx

/-! ## Staging -/

/-- Whether outputs have been laid down in an empty directory. -/
structure Laid (d : Place) (base : FileTree) (done : List (String × String)) (t : FileTree) :
    Prop where
  ordered : Ordered t
  kinds : ∀ p, kind? p t = FileTree.laid d (places done) (lastText done) base p

/-- A directory with nothing in it. -/
def Bare (d : Place) (base : FileTree) : Prop :=
  kind? d base = some .directory ∧ ∀ q, q ≠ [] → kind? (d ++ q) base = none

/-- A file is free to be written among others if it is apart from them. -/
theorem Laid.free_iff (hl : Laid d base done t) (hb : Bare d base) (hf : Fits done)
    {q : Place} (hq : q ≠ []) : t.Free d q ↔ ∀ a ∈ places done, Apart a q := by
  rw [FileTree.free_iff hq]
  constructor
  · rintro ⟨hway, hplace⟩ a ha
    constructor
    · intro hpre
      refine Decidable.byContradiction fun hne => hway a hpre hne (lastText done a) ?_
      rw [hl.kinds, FileTree.laid_of_mem ha]
    · intro hpre
      refine Decidable.byContradiction fun hne => ?_
      by_cases hm : q ∈ places done
      · exact hne ((hf.apart hm ha).1 hpre)
      · refine hplace ?_
        rw [hl.kinds, FileTree.laid_append, if_neg hm, if_pos ⟨a, ha, hpre⟩]
  · intro ha
    constructor
    · intro a hpre hne c hc
      have hm : a ∉ places done := fun hm => hne ((ha a hm).1 hpre)
      rw [hl.kinds, FileTree.laid_append, if_neg hm] at hc
      split at hc
      · cases hc
      · by_cases hnil : a = []
        · rw [hnil, List.append_nil, hb.1] at hc
          cases hc
        · rw [hb.2 a hnil] at hc
          cases hc
    · intro hd
      rw [hl.kinds, FileTree.laid_append] at hd
      split at hd
      · cases hd
      · rename_i hm
        split at hd
        · rename_i hpre
          obtain ⟨a, hm', hpre⟩ := hpre
          exact hm ((ha a hm').2 hpre ▸ hm')
        · rw [hb.2 q hq] at hd
          cases hd

/-- Staging succeeds just if the files fit together, and then all of them are there. Otherwise
something may have happened below the directory. -/
theorem stage_cases {done rest : List (String × String)} (hl : Laid d base done t)
    (hb : Bare d base) (hr : r.LeadsTo t d) (hc : ∀ o ∈ rest, Route.Contained o.1) (hf : Fits done) :
    (∃ u, stage r rest t = (u, .ok ()) ∧ Fits (done ++ rest) ∧ Laid d base (done ++ rest) u) ∨
    ∃ u e, stage r rest t = (u, .error e) ∧ ¬Fits (done ++ rest) ∧ Ordered u ∧
      ∀ p, ¬d <+: p → kind? p u = kind? p base := by
  induction rest generalizing done t with
  | nil =>
    rw [List.append_nil]
    exact .inl ⟨t, rfl, hf, hl⟩
  | cons o rest ih =>
    have hsplit : done ++ o :: rest = (done ++ [o]) ++ rest := List.append_cons done o rest
    rw [hsplit]
    obtain ⟨path, contents⟩ := o
    have ho := hc _ List.mem_cons_self
    rw [stage, bind_apply]
    rcases writeFile_cases hl.ordered hr ho contents with
      ⟨u, hw, hu, hp, hfree, hk⟩ | ⟨u, e, hw, hu, -, hframe, hnot⟩
    · rw [hw]
      have ha := (hl.free_iff hb hf (Route.stepsOf_ne_nil hp.1)).mp hfree
      have hf' : Fits (done ++ [(path, contents)]) := (fits_concat hf).mpr ⟨hp, ha⟩
      have hl' : Laid d base (done ++ [(path, contents)]) u := by
        refine ⟨hu, fun p => ?_⟩
        have hlast : lastText (done ++ [(path, contents)]) (Route.stepsOf path) = contents := by
          rw [lastText_concat, if_pos rfl]
        rw [hk, places_append]
        conv_lhs => rw [← hlast]
        refine FileTree.laid_concat ha (fun a _ hne => ?_) (hl.kinds p)
        rw [lastText_concat, if_neg (Ne.symm hne)]
      refine ih hl' (hr.mono fun p hd => ?_) (fun o ho => hc o (List.mem_cons_of_mem _ ho)) hf'
      rw [hk]
      exact FileAction.placed_directory hfree hd
    · rw [hw]
      refine .inr ⟨u, e, rfl, ?_, hu, fun p hp => ?_⟩
      · intro hfits
        obtain ⟨hp, ha⟩ := (fits_concat hf).mp hfits.of_append
        exact hnot ⟨hp, (hl.free_iff hb hf (Route.stepsOf_ne_nil hp.1)).mpr ha⟩
      · rw [hframe p hp, hl.kinds, FileTree.laid_of_not_prefix hp]

end FileSet

end Switchboard
