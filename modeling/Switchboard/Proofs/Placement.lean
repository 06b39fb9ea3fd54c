import Switchboard.Emission.Write
import Switchboard.Proofs.Creation

/-! Putting one file in place: writing it where it is staged, and moving it from there. Either
everything on the way and the file are there afterwards, or it fails. -/

namespace Switchboard

open FileTree (Kind kind? Ordered Grown)

variable {t u : FileTree} {p d : Place} {r : Route} {path contents : String}

/-- Whether the name of a file is a proper one: it does not end in a directory, no part of it is too
long and none has the null character. -/
def Route.Proper (path : String) : Prop :=
  endsInDirectory path = false ∧ ∀ s ∈ stepsOf path, ¬IsNull s ∧ s.utf8ByteSize ≤ 255

/-- What does not end in a directory has a last step. -/
theorem Route.stepsOf_ne_nil (h : endsInDirectory path = false) : stepsOf path ≠ [] := by
  rw [endsInDirectory] at h
  split at h
  · rename_i last hl
    rw [Bool.or_eq_false_iff, beq_eq_false_iff_ne, beq_eq_false_iff_ne] at h
    have hmem : String.ofList last ∈ (path.toList.splitOn '/').map String.ofList :=
      List.mem_map_of_mem (List.mem_of_getLast? hl)
    have hkeep : String.ofList last ∈ stepsOf path := by
      refine List.mem_filter.mpr ⟨hmem, ?_⟩
      have hne : String.ofList last ≠ "" := by
        intro he
        exact h.1 (by simpa using congrArg String.toList he)
      have hdot : String.ofList last ≠ "." := by
        intro he
        exact h.2 (by simpa using congrArg String.toList he)
      simp [hne, hdot]
    exact List.ne_nil_of_mem hkeep
  · cases h

/-- Whether a file can be put somewhere: no file is on the way and no directory is there. -/
def FileTree.Free (t : FileTree) (d : Place) (steps : List String) : Prop :=
  ¬FileAction.FileOnWay t d steps.dropLast ∧ kind? (d ++ steps) t ≠ some .directory

theorem FileTree.free_iff {q : Place} (hq : q ≠ []) :
    t.Free d q ↔ (∀ a, a <+: q → a ≠ q → ∀ contents, kind? (d ++ a) t ≠ some (.file contents)) ∧
      kind? (d ++ q) t ≠ some .directory := by
  refine and_congr_left fun _ => ?_
  constructor
  · intro hw a ha hne c hc
    exact hw ⟨d ++ a, Route.passes_append.mpr ((Route.prefix_dropLast_iff hq).mpr ⟨ha, hne⟩), c, hc⟩
  · rintro hw ⟨_, ⟨⟨a, rfl⟩, ha⟩, c, hc⟩
    rw [List.prefix_append_right_inj, Route.prefix_dropLast_iff hq] at ha
    exact hw a ha.1 ha.2 c hc

namespace FileAction

private theorem write_eq (r : Route) (contents : String) (t : FileTree) :
    write r contents t =
      match r.place t with
      | .error e => (t, .error e)
      | .ok q =>
        if kind? q t = some .directory ∨ r.directory = true then (t, .error .isDirectory)
        else (t.set (some (.file contents)) q, .ok ()) := by
  rw [write, bind_apply, ask]
  cases r.place t with
  | error e => rfl
  | ok q =>
    simp only [bind_apply, ask]
    rcases hq : t.at? q with _ | _ | _
    · cases hd : r.directory <;> simp [kind?, hq, fail, set]
    · cases hd : r.directory <;> simp [kind?, hq, FileTree.kind, fail, set]
    · simp [kind?, hq, FileTree.kind, fail]

private theorem move_eq (source target : Route) (t : FileTree) :
    move source target t =
      match source.place t, target.place t with
      | .error e, _ => (t, .error e)
      | .ok _, .error e => (t, .error e)
      | .ok old, .ok new =>
        match kind? old t with
        | none => (t, .error .missing)
        | some .directory => (t, .error .isDirectory)
        | some (.file contents) =>
          match kind? new t with
          | some .directory => (t, .error .isDirectory)
          | _ =>
            if target.directory then (t, .error .notDirectory)
            else ((t.set none old).set (some (.file contents)) new, .ok ()) := by
  rw [move, bind_apply, ask]
  cases source.place t with
  | error e => rfl
  | ok old =>
    simp only [bind_apply, ask]
    cases target.place t with
    | error e => rfl
    | ok new =>
      simp only [kind?]
      rcases t.at? old with _ | _ | _
      · rfl
      · rcases t.at? new with _ | _ | _
        · cases target.directory <;> rfl
        · cases target.directory <;> rfl
        · rfl
      · rfl

/-- A file that is moved is at its new place only. -/
theorem move_file {source target : Route} {old new : Place} (ho : Ordered t)
    (hold : source.place t = .ok old) (hnew : target.place t = .ok new)
    (hfile : kind? old t = some (.file contents)) (hfree : kind? new t ≠ some .directory)
    (hup : kind? old.dropLast t = some .directory) (hin : kind? new.dropLast t = some .directory)
    (hne : old ≠ new) (hd : target.directory = false) :
    ∃ u, move source target t = (u, .ok ()) ∧ Ordered u ∧
      ∀ p, kind? p u =
        if p = old then none else if p = new then some (.file contents) else kind? p t := by
  have hroot : ∀ q : Place, kind? q t ≠ some .directory →
      kind? q.dropLast t = some .directory → q ≠ [] := by
    rintro q hq hp rfl
    exact hq hp
  -- the file is taken away first
  have hgone : ∀ p, kind? p (t.set none old) = if p = old then none else kind? p t := by
    have hk : kind? old t ≠ some .directory := by simp [hfile]
    exact FileTree.kind?_set_leaf ho (fun _ _ => rfl) (hroot old hk hup) hup hk
  have ho' : Ordered (t.set none old) := FileTree.ordered_set (by simp) old ho
  have hin' : kind? new.dropLast (t.set none old) = some .directory := by
    rw [hgone, if_neg, hin]
    intro h
    rw [h, hfile] at hin
    cases hin
  have hfree' : kind? new (t.set none old) ≠ some .directory := by
    rw [hgone, if_neg (Ne.symm hne)]
    exact hfree
  refine ⟨(t.set none old).set (some (.file contents)) new, ?_, ?_, fun p => ?_⟩
  · rw [move_eq, hold, hnew]
    simp only [hfile, hd]
    rcases hk : kind? new t with _ | _ | _
    · rfl
    · rfl
    · exact absurd hk hfree
  · refine FileTree.ordered_set ?_ new ho'
    rintro _ ⟨⟩
    exact FileTree.ordered_file contents
  · rw [FileTree.kind?_set_leaf ho' (fun _ _ => rfl) (hroot new hfree hin) hin' hfree', hgone]
    by_cases hp : p = new
    · rw [if_pos hp, if_neg (hp ▸ Ne.symm hne), if_pos hp]
      rfl
    · rw [if_neg hp, if_neg hp]

/-- What is at each place after a file has been put below a directory. -/
def placed (d : Place) (steps : List String) (contents : String) (t : FileTree) (p : Place) :
    Option Kind :=
  if p = d ++ steps then some (.file contents)
  else if Route.Passes d steps p then some .directory
  else kind? p t

/-- Directories stay when a file is put where it is free to be. -/
theorem placed_directory {steps : List String} (hf : t.Free d steps)
    (hp : kind? p t = some .directory) : placed d steps contents t p = some .directory := by
  have hne : p ≠ d ++ steps := by
    rintro rfl
    exact hf.2 hp
  rw [placed, if_neg hne, hp]
  split
  · rfl
  · rfl

end FileAction

namespace FileSet

open FileAction

/-- Where the directories on the way are there, a file is written if its name is a proper one and no
directory is there, and otherwise nothing happens. -/
theorem write_cases {steps : List String} (hl : r.LeadsTo u d) (hb : ".." ∉ steps)
    (hdirs : ∀ q, Route.Passes d steps.dropLast q → kind? q u = some .directory) (b : Bool)
    (contents : String) :
    (write (r.down steps b) contents u = (u.set (some (.file contents)) (d ++ steps), .ok ()) ∧
      b = false ∧ (∀ s ∈ steps, ¬Route.IsNull s ∧ s.utf8ByteSize ≤ 255) ∧
      kind? (d ++ steps) u ≠ some .directory) ∨
    ∃ e, write (r.down steps b) contents u = (u, .error e) ∧
      ¬(b = false ∧ (∀ s ∈ steps, ¬Route.IsNull s ∧ s.utf8ByteSize ≤ 255) ∧
        kind? (d ++ steps) u ≠ some .directory) := by
  rw [write_eq]
  cases hq : (r.down steps b).place u with
  | error e =>
    refine .inr ⟨e, rfl, ?_⟩
    rintro ⟨-, hnames, -⟩
    rw [Route.place_below hl hb hnames hdirs] at hq
    cases hq
  | ok q =>
    obtain ⟨hz, hf⟩ := (Route.place_down hl steps b).mp hq
    obtain ⟨rfl, hshort, -⟩ := (Route.follow_plain hb).mp hf
    simp only
    by_cases hstop : kind? (d ++ steps) u = some .directory ∨ (r.down steps b).directory = true
    · rw [if_pos hstop]
      refine .inr ⟨_, rfl, ?_⟩
      rintro ⟨rfl, -, hdir⟩
      exact Bool.false_ne_true (hstop.resolve_left hdir)
    · rw [if_neg hstop]
      rw [not_or, Bool.not_eq_true] at hstop
      exact .inl ⟨rfl, hstop.2, fun s hs => ⟨hz s hs, hshort s hs⟩, hstop.1⟩

/-- A file with a proper name is written where it is free to be, with all directories on the way.
Otherwise it fails, and no more than some of the directories have been made. -/
theorem writeFile_cases (ho : Ordered t) (hl : r.LeadsTo t d) (hc : Route.Contained path)
    (contents : String) :
    (∃ u, writeFile (r.join path) contents t = (u, .ok ()) ∧ Ordered u ∧ Route.Proper path ∧
      t.Free d (Route.stepsOf path) ∧
      ∀ p, kind? p u = placed d (Route.stepsOf path) contents t p) ∨
    ∃ u e, writeFile (r.join path) contents t = (u, .error e) ∧ Ordered u ∧ Grown t u ∧
      (∀ p, ¬d <+: p → kind? p u = kind? p t) ∧
      ¬(Route.Proper path ∧ t.Free d (Route.stepsOf path)) := by
  rw [writeFile, bind_apply, Route.join_of_contained hc]
  generalize hs : Route.stepsOf path = steps
  have hb : ".." ∉ steps := hs ▸ hc.2
  rcases createParents_cases ho hl hb (Route.endsInDirectory path) with
    ⟨u, hm, hu, hg, hw, hk⟩ | ⟨u, e, hm, hu, hg, hframe, -, hnot⟩
  · rw [hm]
    have hlu := hl.mono fun p => hg.directory (p := p)
    have hdirs : ∀ q, Route.Passes d steps.dropLast q → kind? q u = some .directory := by
      intro q hq
      rw [hk, if_pos hq]
    have hat : kind? (d ++ steps) u = kind? (d ++ steps) t := by
      by_cases he : steps = []
      · rw [he, List.append_nil, hl.2, hlu.2]
      · rw [hk, if_neg (Route.not_passes_dropLast he)]
    rcases write_cases hlu hb hdirs (Route.endsInDirectory path) contents with
      ⟨hv, hend, hnames, hdir⟩ | ⟨e, hv, hnot⟩
    · have he : steps ≠ [] := hs ▸ Route.stepsOf_ne_nil hend
      refine .inl ⟨_, hv, ?_, ⟨hend, hs ▸ hnames⟩, ⟨hw, hat ▸ hdir⟩, fun p => ?_⟩
      · refine FileTree.ordered_set ?_ _ hu
        rintro _ ⟨⟩
        exact FileTree.ordered_file contents
      · have hparent : kind? (d ++ steps).dropLast u = some .directory := by
          rw [List.dropLast_append_of_ne_nil he]
          exact hdirs _ (Route.passes_append.mpr (List.prefix_refl _))
        rw [FileTree.kind?_set_leaf hu (fun _ _ => rfl) (by simp [he]) hparent hdir, hk, placed]
        by_cases hp : p = d ++ steps
        · rw [if_pos hp, if_pos hp]
          rfl
        · rw [if_neg hp, if_neg hp]
          simp only [Route.passes_iff_dropLast he, hp, false_or]
    · refine .inr ⟨u, e, hv, hu, hg, fun p hp => ?_, ?_⟩
      · rw [hk, if_neg fun h => hp h.1]
      · rintro ⟨hp, -, hfree⟩
        rw [Route.Proper, hs] at hp
        exact hnot ⟨hp.1, hp.2, hat ▸ hfree⟩
  · rw [hm]
    refine .inr ⟨u, e, rfl, hu, hg, hframe, ?_⟩
    rintro ⟨hp, hw, -⟩
    rw [Route.Proper, hs] at hp
    exact hnot ⟨hp.2, hw⟩

/-- What is there has all directories on the way to it. -/
theorem directory_of_passes {steps : List String} (hs : steps ≠ [])
    (h : kind? (d ++ steps) t ≠ none) (p : Place) (hp : Route.Passes d steps.dropLast p) :
    kind? p t = some .directory := by
  obtain ⟨⟨q, rfl⟩, hq⟩ := hp
  rw [List.prefix_append_right_inj] at hq
  obtain ⟨rest, hrest⟩ := hq
  have hsteps : steps = q ++ (rest ++ [steps.getLast hs]) := by
    rw [← List.append_assoc, hrest, List.dropLast_append_getLast]
  rw [hsteps, ← List.append_assoc] at h
  exact FileTree.directory_of_above (by simp) h

section Promotion

variable {source : Route} {name : String}

/-- A file that is not free to be moved, or is not staged any more because it has been moved, is not
moved, and nothing happens. -/
theorem promoteFile_blocked (ho : Ordered t) (hl : r.LeadsTo t d)
    (hsource : source.LeadsTo t (d ++ [name])) (hc : Route.Contained path)
    (hp : Route.Proper path)
    (hstaged : ∀ q, Route.Passes (d ++ [name]) (Route.stepsOf path).dropLast q →
      kind? q t = some .directory)
    (h : ¬t.Free d (Route.stepsOf path) ∨ kind? (d ++ Route.stepsOf path) t ≠ none ∧
      kind? (d ++ [name] ++ Route.stepsOf path) t = none) :
    ∃ e, promoteFile (source.join path) (r.join path) t = (t, .error e) := by
  have hs := Route.stepsOf_ne_nil hp.1
  have hthere : FileOnWay t d (Route.stepsOf path).dropLast ∨
      kind? (d ++ Route.stepsOf path) t ≠ none := by
    rcases h with hf | ⟨hk, -⟩
    · rw [FileTree.Free, not_and_or, not_not, not_not] at hf
      exact hf.imp id fun hk => by simp [hk]
    · exact .inr hk
  rw [promoteFile, bind_apply, Route.join_of_contained hc, Route.join_of_contained hc]
  rcases createParents_cases ho hl hc.2 (Route.endsInDirectory path) with
    ⟨u, hm, hu, -, hw, hk⟩ | ⟨u, e, hm, -, -, -, hsame, hnot⟩
  · have hdirs := directory_of_passes hs (hthere.resolve_left hw)
    have hut : u = t := by
      refine FileTree.ext hu ho fun p => ?_
      rw [hk]
      split
      · rename_i hpass
        exact (hdirs p hpass).symm
      · rfl
    subst hut
    rw [hm]
    simp only [move_eq, Route.place_below hl hc.2 hp.2 hdirs,
      Route.place_below hsource hc.2 hp.2 hstaged]
    rcases hold : kind? (d ++ [name] ++ Route.stepsOf path) u with _ | c | _
    · exact ⟨_, rfl⟩
    · have hnew : kind? (d ++ Route.stepsOf path) u = some .directory := by
        rcases h with hf | ⟨-, hk⟩
        · rw [FileTree.Free, not_and_or, not_not, not_not] at hf
          exact hf.resolve_left hw
        · rw [hold] at hk
          cases hk
      simp only [hnew]
      exact ⟨_, rfl⟩
    · exact ⟨_, rfl⟩
  · rw [hm]
    by_cases hw : FileOnWay t d (Route.stepsOf path).dropLast
    · rw [hsame hw]
      exact ⟨e, rfl⟩
    · exact absurd ⟨hp.2, hw⟩ hnot

/-- A file that is staged and free to be moved is moved, with all directories on the way. -/
theorem promoteFile_free (ho : Ordered t) (hl : r.LeadsTo t d)
    (hsource : source.LeadsTo t (d ++ [name])) (hc : Route.Contained path)
    (hp : Route.Proper path)
    (hstaged : ∀ q, Route.Passes (d ++ [name]) (Route.stepsOf path).dropLast q →
      kind? q t = some .directory)
    (hfile : kind? (d ++ [name] ++ Route.stepsOf path) t = some (.file contents))
    (hfree : t.Free d (Route.stepsOf path)) :
    ∃ u, promoteFile (source.join path) (r.join path) t = (u, .ok ()) ∧ Ordered u ∧
      ∀ p, kind? p u = if p = d ++ [name] ++ Route.stepsOf path then none
        else placed d (Route.stepsOf path) contents t p := by
  have hs := Route.stepsOf_ne_nil hp.1
  rw [promoteFile, bind_apply, Route.join_of_contained hc, Route.join_of_contained hc]
  obtain ⟨hend, hnames⟩ := hp
  obtain ⟨-, hb⟩ := hc
  generalize Route.stepsOf path = steps at *
  rcases createParents_cases ho hl hb (Route.endsInDirectory path) with
    ⟨u, hm, hu, hg, -, hk⟩ | ⟨u, e, -, -, -, -, -, hnot⟩
  · have hdir := fun p => hg.directory (p := p)
    have hdirs : ∀ q, Route.Passes d steps.dropLast q → kind? q u = some .directory := by
      intro q hq
      rw [hk, if_pos hq]
    have hlong : ¬Route.Passes d steps.dropLast (d ++ [name] ++ steps) := by
      intro h
      have := h.2.length_le
      simp only [List.length_append, List.length_singleton, List.length_dropLast] at this
      omega
    have hne : d ++ steps ≠ d ++ [name] ++ steps := by
      intro h
      have := congrArg List.length h
      simp only [List.length_append, List.length_singleton] at this
      omega
    have hold : kind? (d ++ [name] ++ steps) u = some (.file contents) := by
      rw [hk, if_neg hlong, hfile]
    have hnew : kind? (d ++ steps) u ≠ some .directory := by
      rw [hk, if_neg (Route.not_passes_dropLast hs)]
      exact hfree.2
    have hup : kind? (d ++ [name] ++ steps).dropLast u = some .directory := by
      rw [List.dropLast_append_of_ne_nil hs]
      exact hdir _ (hstaged _ (Route.passes_append.mpr (List.prefix_refl _)))
    have hin : kind? (d ++ steps).dropLast u = some .directory := by
      rw [List.dropLast_append_of_ne_nil hs]
      exact hdirs _ (Route.passes_append.mpr (List.prefix_refl _))
    rw [hm]
    obtain ⟨v, hv, hov, hkv⟩ := move_file hu
      (Route.place_below (hsource.mono hdir) hb hnames (fun q hq => hdir q (hstaged q hq))
        (Route.endsInDirectory path))
      (Route.place_below (hl.mono hdir) hb hnames hdirs (Route.endsInDirectory path))
      hold hnew hup hin (Ne.symm hne) hend
    refine ⟨v, hv, hov, fun p => ?_⟩
    rw [hkv, hk, placed]
    by_cases hp : p = d ++ steps
    · rw [if_pos hp, if_pos hp]
    · rw [if_neg hp, if_neg hp]
      simp only [Route.passes_iff_dropLast hs, hp, false_or]
  · exact absurd ⟨hnames, hfree.1⟩ hnot

end Promotion

end FileSet

end Switchboard
