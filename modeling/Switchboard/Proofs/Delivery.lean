import Mathlib.Data.List.Induction
import Mathlib.Data.List.Perm.Subperm
import Switchboard.Proofs.Mounting
import Switchboard.Proofs.Writing

/-! What a write that succeeds leaves: every output with its contents, everything else as it was and
no staging directory. To write the same once more changes nothing. -/

namespace Switchboard

open FileAction (bind_apply createDirectories freshName? temporaryName)
open FileTree (Kind kind? Ordered Grown laid)
open SortedMap (keys)

variable {r : Route} {d p q : Place} {base t u : FileTree}

/-! ## Reading files -/

/-- The contents of the file that a route leads to. -/
def Route.text? (r : Route) (t : FileTree) : Option String :=
  match r.at? t with
  | some (.file contents) => if r.directory then none else some contents
  | _ => none

/-- Trees in which the same kinds of things are below a place have the same there. -/
theorem FileTree.at?_eq_of_kind?_eq (ht : Ordered t) (hu : Ordered u)
    (h : ∀ q, kind? (p ++ q) t = kind? (p ++ q) u) : t.at? p = u.at? p := by
  have hnil := h []
  rw [List.append_nil, kind?, kind?] at hnil
  cases hp : t.at? p with
  | none =>
    rw [hp, Option.map_none, eq_comm, Option.map_eq_none_iff] at hnil
    exact hnil.symm
  | some inner =>
    cases hq : u.at? p with
    | none =>
      rw [hp, hq] at hnil
      cases hnil
    | some other =>
      refine congrArg some (FileTree.ext (ht.at? hp) (hu.at? hq) fun q => ?_)
      have hbelow := h q
      rw [kind?_append, kind?_append, hp, hq] at hbelow
      exact hbelow

/-! ## Names that stay new -/

/-- What is found among fewer names that are taken is found among more, if none of it is taken. -/
theorem FileAction.freshName?_mono {taken more : List String} (hlen : taken.length ≤ more.length)
    (hsub : more ⊆ taken) (h : freshName? taken ≠ none) : freshName? more ≠ none := by
  rw [freshName?, ne_eq, List.find?_eq_none, not_forall] at h ⊢
  obtain ⟨name, h⟩ := h
  rw [not_forall, exists_prop] at h
  obtain ⟨hmem, hnew⟩ := h
  refine ⟨name, fun hall => hall ?_ ?_⟩
  · obtain ⟨n, hn, rfl⟩ := List.mem_map.mp hmem
    refine List.mem_map_of_mem (List.mem_range.mpr ?_)
    have hlt := List.mem_range.mp hn
    omega
  · simp only [Bool.not_eq_true', List.contains_eq_mem, decide_eq_false_iff_not] at hnew ⊢
    exact fun hm => hnew fun hm' => hm' (hsub hm)

namespace FileSet

variable {outputs : List (String × String)} {o : String × String}

/-- If no two outputs are for one place, each is the last one for its place. -/
theorem lastText_of_mem (h : (places outputs).Nodup) (ho : o ∈ outputs) :
    lastText outputs (Route.stepsOf o.1) = o.2 := by
  induction outputs using List.reverseRecOn with
  | nil => cases ho
  | append_singleton done last ih =>
    rw [places_append, List.nodup_append] at h
    rw [lastText_concat]
    rcases List.mem_append.mp ho with ho | ho
    · have hne : Route.stepsOf last.1 ≠ Route.stepsOf o.1 := fun he =>
        h.2.2 _ (List.mem_map_of_mem ho) _ (List.mem_singleton.mpr rfl) he.symm
      rw [if_neg hne, ih h.1 ho]
    · rw [List.mem_singleton.mp ho, if_pos rfl]

/-! ## A write that succeeds -/

/-- What it takes for all outputs to be moved into place, and what is there then. -/
structure Written (r : Route) (outputs : List (String × String)) (t base : FileTree) (d : Place)
    (u : FileTree) : Prop where
  made : Made r t base d
  fits : Fits outputs
  free : ∀ q ∈ places outputs, base.Free d q
  once : (places outputs).Nodup
  ordered : Ordered u
  kinds : ∀ p, kind? p u = laid d (places outputs) (lastText outputs) base p

private theorem Installed.written (h : Installed r outputs t (u, .ok ())) :
    ∃ base d, Written r outputs t base d u := by
  cases h with
  | complete hm hf hfree honce hl hk => exact ⟨_, _, hm, hf, hfree, honce, hl, hk⟩

namespace Written

section

variable (w : Written r outputs t base d u)
include w

private theorem directory (hp : kind? p base = some .directory) : kind? p u = some .directory := by
  rw [w.kinds]
  exact FileTree.laid_directory (fun q hq => (w.free q hq).2) hp

private theorem leads : r.LeadsTo u d := w.made.leads.mono fun _ => w.directory

private theorem file (hq : q ∈ places outputs) :
    kind? (d ++ q) u = some (.file (lastText outputs q)) := by
  rw [w.kinds, FileTree.laid_of_mem hq]

/-- Where the route of an output leads now. -/
theorem place (hc : ∀ o ∈ outputs, Route.Contained o.1) (ho : o ∈ outputs) :
    (r.join o.1).place u = .ok (d ++ Route.stepsOf o.1) := by
  have hmem : Route.stepsOf o.1 ∈ places outputs := List.mem_map_of_mem ho
  rw [Route.join_of_contained (hc o ho)]
  refine Route.place_below w.leads (hc o ho).2 (w.fits.1 o ho).2 (fun p hp => ?_) _
  refine directory_of_passes (w.fits.ne_nil hmem) ?_ p hp
  rw [w.file hmem]
  simp

private theorem text? (hc : ∀ o ∈ outputs, Route.Contained o.1) (ho : o ∈ outputs) :
    (r.join o.1).text? u = some o.2 := by
  have hmem : Route.stepsOf o.1 ∈ places outputs := List.mem_map_of_mem ho
  have hfile := w.file hmem
  rw [lastText_of_mem w.once ho, FileTree.kind?_eq_file_iff] at hfile
  have hend : (r.join o.1).directory = false := by
    rw [Route.join_of_contained (hc o ho)]
    exact (w.fits.1 o ho).1
  have hat : (r.join o.1).at? u = some (.file o.2) := by
    rw [Route.at?, w.place hc ho]
    exact hfile
  simp only [Route.text?, hat, hend, Bool.false_eq_true, if_false]

/-- Files at other places stay: none is on the way to an output. -/
theorem kind?_of_file {text : String} (hp : kind? p base = some (.file text))
    (hout : ∀ q ∈ places outputs, p ≠ d ++ q) : kind? p u = some (.file text) := by
  have hfile : ¬∃ q ∈ places outputs, p = d ++ q := fun ⟨q, hq, he⟩ => hout q hq he
  have hway : ¬∃ q ∈ places outputs, Route.Passes d q p := by
    rintro ⟨q, hq, ⟨a, rfl⟩, hpass⟩
    rw [List.prefix_append_right_inj] at hpass
    have hfree := (FileTree.free_iff (w.fits.ne_nil hq)).mp (w.free q hq)
    exact hfree.1 a hpass (fun he => hout q hq (by rw [he])) text hp
  rw [w.kinds, laid, if_neg hfile, if_neg hway, hp]

/-- Where nothing was, there is an output now or a directory that was made. -/
theorem kind?_of_none (hp : kind? p base = none) (hu : kind? p u ≠ none) :
    (∃ q ∈ places outputs, p = d ++ q) ∨
      kind? p u = some .directory ∧ ∃ q ∈ places outputs, p <+: d ++ q := by
  by_cases hfile : ∃ q ∈ places outputs, p = d ++ q
  · exact .inl hfile
  · rw [w.kinds, laid, if_neg hfile] at hu ⊢
    by_cases hway : ∃ q ∈ places outputs, Route.Passes d q p
    · obtain ⟨q, hq, hpass⟩ := hway
      rw [if_pos ⟨q, hq, hpass⟩]
      exact .inr ⟨rfl, q, hq, hpass.2⟩
    · rw [if_neg hway] at hu
      exact absurd hp hu

/-- Places that no output goes through stay as they are. -/
theorem at?_of_aside (hq : ∀ a ∈ places outputs, ¬q <+: a ∧ ¬a <+: q) :
    u.at? (d ++ q) = base.at? (d ++ q) := by
  refine FileTree.at?_eq_of_kind?_eq w.ordered w.made.ordered fun more => ?_
  have hmem : q ++ more ∉ places outputs := fun h => (hq _ h).1 (List.prefix_append q more)
  have hway : ¬∃ a ∈ places outputs, q ++ more <+: a := fun ⟨a, ha, hpre⟩ =>
    (hq a ha).1 ((List.prefix_append q more).trans hpre)
  rw [w.kinds, List.append_assoc, FileTree.laid_append, if_neg hmem, if_neg hway]

/-- Everything on the way to an output is a directory now, and where it is there is a file. -/
theorem free_again (hq : q ∈ places outputs) : u.Free d q := by
  have hne := w.fits.ne_nil hq
  refine (FileTree.free_iff hne).mpr ⟨fun a ha hane text hfile => ?_, ?_⟩
  · have hpass : Route.Passes d q.dropLast (d ++ a) :=
      Route.passes_append.mpr ((Route.prefix_dropLast_iff hne).mpr ⟨ha, hane⟩)
    have hdir := directory_of_passes hne (by rw [w.file hq]; simp) _ hpass
    rw [hfile] at hdir
    cases hdir
  · rw [w.file hq]
    simp

/-- No name for a staging directory is lost: what is new in the directory is an output's. -/
theorem freshName?_again {entries entries' : SortedMap FileTree}
    (hd : base.at? d = some (.directory entries)) (hd' : u.at? d = some (.directory entries'))
    (hn : freshName? (keys entries ++ avoided outputs) ≠ none) :
    freshName? (keys entries' ++ avoided outputs) ≠ none := by
  refine FileAction.freshName?_mono ?_ ?_ hn
  · have hsub : keys entries ⊆ keys entries' := by
      intro s hs
      rw [FileTree.mem_keys_iff hd']
      rw [FileTree.mem_keys_iff hd] at hs
      cases hk : kind? (d ++ [s]) base with
      | none => exact absurd hk hs
      | some k =>
        cases k with
        | directory =>
          rw [w.directory hk]
          simp
        | file text =>
          by_cases hout : ∃ q ∈ places outputs, d ++ [s] = d ++ q
          · obtain ⟨q, hq, he⟩ := hout
            rw [he, w.file hq]
            simp
          · rw [w.kind?_of_file hk fun q hq he => hout ⟨q, hq, he⟩]
            simp
    have hle := (List.subperm_of_subset (w.made.ordered d entries hd).nodup hsub).length_le
    simpa using hle
  · intro s hs
    rcases List.mem_append.mp hs with hs | hs
    · by_cases hk : kind? (d ++ [s]) base = none
      · refine List.mem_append_right _ ?_
        have hpre : ∃ q ∈ places outputs, [s] <+: q := by
          rcases w.kind?_of_none hk ((FileTree.mem_keys_iff hd' s).mp hs) with ⟨q, hq, he⟩ | ⟨-, q, hq, hpre⟩
          · exact ⟨q, hq, List.append_cancel_left he ▸ List.prefix_refl [s]⟩
          · exact ⟨q, hq, (List.prefix_append_right_inj d).mp hpre⟩
        obtain ⟨q, hq, hpre⟩ := hpre
        obtain ⟨o, ho, rfl⟩ := List.mem_map.mp hq
        exact List.mem_flatMap.mpr ⟨o, ho, hpre.subset List.mem_cons_self⟩
      · exact List.mem_append_left _ ((FileTree.mem_keys_iff hd s).mpr hk)
    · exact List.mem_append_right _ hs

end

end Written

/-- A write that succeeds has found a name for its staging directory. -/
theorem freshName?_of_install (hm : Made r t base d) {entries : SortedMap FileTree}
    (hd : base.at? d = some (.directory entries)) (h : (install r outputs t).2 = .ok ()) :
    freshName? (keys entries ++ avoided outputs) ≠ none := by
  intro hn
  rw [avoided] at hn
  rw [install, bind_apply, hm.made] at h
  simp only at h
  rw [bind_apply, createStaging_eq hm.leads hd, hn] at h
  cases h

/-- To write once more what has been written succeeds and changes nothing. -/
theorem Written.install_again (w : Written r outputs t base d u)
    (ht : kind? r.start t = some .directory) (hc : ∀ o ∈ outputs, Route.Contained o.1)
    (h : (install r outputs t).2 = .ok ()) : install r outputs u = (u, .ok ()) := by
  have hmade := made_of_leadsTo w.ordered w.leads
  have hstart : kind? r.start u = some .directory := w.directory (w.made.grown.directory ht)
  have hi := install_cases w.ordered hstart hc
  generalize install r outputs u = result at hi
  cases hi with
  | unreachable hstop =>
    rw [hmade.made] at hstop
    cases hstop
  | unnamed hm hd' hn =>
    obtain ⟨rfl, rfl⟩ := hmade.unique hm
    obtain ⟨entries, hd⟩ := FileTree.kind?_eq_directory_iff.mp w.made.leads.2
    exact absurd hn (w.freshName?_again hd hd' (freshName?_of_install w.made hd h))
  | unfit hm hf => exact absurd w.fits hf
  | @blocked _ _ _ _ _ before after o hm hd hn hf hs hb hfree honce hl hk =>
    obtain ⟨rfl, rfl⟩ := hmade.unique hm
    have hplaces : places outputs = places before ++ Route.stepsOf o.1 :: places after := by
      rw [hs, places_append]
      rfl
    refine absurd hb ?_
    rintro (hnot | hmem)
    · refine hnot (w.free_again ?_)
      rw [hplaces]
      exact List.mem_append_right _ List.mem_cons_self
    · have hnodup := w.once
      rw [hplaces] at hnodup
      exact (List.nodup_append.mp hnodup).2.2 _ hmem _ List.mem_cons_self rfl
  | complete hm hf hfree honce hl hk =>
    obtain ⟨rfl, rfl⟩ := hmade.unique hm
    have hsame : _ = u := FileTree.ext hl w.ordered fun p => by
      rw [hk]
      exact FileTree.laid_eq_self (fun q hq => w.file hq) (fun q hq => w.fits.ne_nil hq) p
    rw [hsame]

/-- That everything but the outputs is as it was before a write: files and directories stay, nothing
is new but the outputs and directories that lead to them, and whatever a staging directory can be
named is only there if it was on the way to where the outputs are. -/
structure RestKept (r : Route) (outputs : List (String × String)) (t u : FileTree) : Prop where
  files : ∀ p text, t.at? p = some (.file text) →
    (∀ o ∈ outputs, (r.join o.1).place u ≠ .ok p) → u.at? p = some (.file text)
  directories : ∀ p, kind? p t = some .directory → kind? p u = some .directory
  new : ∀ p, kind? p t = none → kind? p u ≠ none →
    (∃ o ∈ outputs, (r.join o.1).place u = .ok p) ∨
      kind? p u = some .directory ∧ (kind? p (createDirectories r t).1 = some .directory ∨
        ∃ o ∈ outputs, ∃ q, (r.join o.1).place u = .ok q ∧ p <+: q)
  staging : ∀ d n, r.place u = .ok d →
    u.at? (d ++ [temporaryName n]) = (createDirectories r t).1.at? (d ++ [temporaryName n])

private theorem Written.restKept (w : Written r outputs t base d u)
    (hc : ∀ o ∈ outputs, Route.Contained o.1)
    (htemp : ∀ q ∈ places outputs, ∀ n, ¬[temporaryName n] <+: q) :
    RestKept r outputs t u where
  files p text hp hout := by
    rw [← FileTree.kind?_eq_file_iff] at hp ⊢
    refine w.kind?_of_file ?_ fun q hq he => ?_
    · rcases w.made.grown p with hk | ⟨hk, -⟩
      · rw [hk, hp]
      · rw [hp] at hk
        cases hk
    · obtain ⟨o, ho, rfl⟩ := List.mem_map.mp hq
      exact hout o ho (by rw [w.place hc ho, he])
  directories p hp := w.directory (w.made.grown.directory hp)
  new p hp hu := by
    have hbase : (createDirectories r t).1 = base := by rw [w.made.made]
    rw [hbase]
    rcases w.made.grown p with hk | ⟨-, hk⟩
    · rw [hp] at hk
      rcases w.kind?_of_none hk hu with ⟨q, hq, rfl⟩ | ⟨hdir, q, hq, hpre⟩
      · obtain ⟨o, ho, rfl⟩ := List.mem_map.mp hq
        exact .inl ⟨o, ho, w.place hc ho⟩
      · obtain ⟨o, ho, rfl⟩ := List.mem_map.mp hq
        exact .inr ⟨hdir, .inr ⟨o, ho, _, w.place hc ho, hpre⟩⟩
    · exact .inr ⟨w.directory hk, .inl hk⟩
  staging d' n hd' := by
    have hbase : (createDirectories r t).1 = base := by rw [w.made.made]
    rw [w.leads.1] at hd'
    cases hd'
    rw [hbase]
    refine w.at?_of_aside fun a ha => ⟨htemp a ha n, fun hpre => ?_⟩
    have hsame : a = [temporaryName n] := by
      rcases List.prefix_cons_iff.mp hpre with rfl | ⟨rest, rfl, hrest⟩
      · exact absurd rfl (w.fits.ne_nil ha)
      · rw [List.prefix_nil.mp hrest]
    exact htemp a ha n (hsame ▸ List.prefix_refl _)

/-! ## The files of a model -/

section

variable {emit : Emission.Emitter} {m : Model} {ask : Introspector} {c : Config} {s : FileSet}

/-- Whether a path leads down from where it starts, by no name that a staging directory can have. -/
def Clear (path : String) : Prop :=
  Route.Contained path ∧ ∀ n, ¬[temporaryName n] <+: Route.stepsOf path

/-- Names of staging directories begin with a dot. -/
theorem clear_of_steps {path name : String} {rest : List String}
    (hs : Route.stepsOf path = name :: rest) (hp : path.toList.head? = some 'i')
    (hn : name.toList.head? = some 'i') (hb : ".." ∉ name :: rest) : Clear path := by
  refine ⟨⟨by simp [hp], hs ▸ hb⟩, fun n hpre => ?_⟩
  rw [hs] at hpre
  obtain ⟨he, -⟩ := List.cons_prefix_cons.mp hpre
  rw [← he, FileAction.toList_temporaryName] at hn
  cases hn

private theorem clear_indexPath : Clear Emission.indexPath := by
  have hs : Route.stepsOf Emission.indexPath = ["internal.rs"] := by decide +kernel
  exact clear_of_steps hs (by decide) (by decide) (by decide)

private theorem clear_dispatcherPath : Clear Emission.dispatcherPath := by
  have hs : Route.stepsOf Emission.dispatcherPath = ["internal", "dispatcher.rs"] := by
    decide +kernel
  exact clear_of_steps hs (by decide) (by decide) (by decide)

private theorem clear_converterPath {g : Group} (hb : g.hasBareModule = true) :
    Clear g.converterPath := by
  refine clear_of_steps (g.stepsOf_converterPath_iff.mpr (Group.slash_not_mem_of_bare hb)) ?_
    (by decide) ?_
  · change ("internal/mapper/" ++ g.moduleName ++ ".rs").toList.head? = some 'i'
    simp
  · have hlen : (g.moduleName ++ ".rs").length ≠ "..".length := by
      have hrs : ".rs".length = 3 := rfl
      have hdots : "..".length = 2 := rfl
      rw [String.length_append]
      omega
    have hne : ".." ≠ g.moduleName ++ ".rs" := fun he => hlen (by rw [he])
    simp [hne]

private theorem clear_outputs (h : Generation.run emit m ask c = .ok s) {base : IncludeBase}
    {index : String} (hi : s.index? base = some index) : ∀ o ∈ s.outputs index, Clear o.1 := by
  have hbare := (Generation.isSome_index?_iff h base).mp (by rw [hi]; rfl)
  intro o ho
  rcases List.mem_append.mp ho with ho | ho
  · obtain ⟨f, hf, rfl⟩ := List.mem_map.mp ho
    have hpath := List.mem_map_of_mem (f := GeneratedFile.path) hf
    rw [Generation.paths_of_run h, List.mem_append, List.mem_singleton] at hpath
    rcases hpath with hpath | hpath
    · obtain ⟨g, hg, he⟩ := List.mem_map.mp hpath
      rw [← he]
      exact clear_converterPath (hbare g hg)
    · rw [hpath]
      exact clear_dispatcherPath
  · rw [List.mem_singleton.mp ho]
    exact clear_indexPath

/-- A write that succeeds leaves exactly the files of the set and the index: all of them are read
back with their contents, everything else is as it was, and no staging directory is left. To write
the same once more succeeds and changes nothing. -/
theorem write_delivered (here : Place) (directory : String) (base : IncludeBase) (t u : FileTree)
    (h : Generation.run emit m ask c = .ok s) (ho : t.Ordered)
    (hh : kind? here t = some .directory)
    (hw : (s.write? here directory base).map (fun write => write t) = some (u, .ok ())) :
    ∃ index, s.index? base = some index ∧
      (∀ f ∈ s.files, ((Route.of here directory).join f.path).text? u = some f.contents) ∧
      ((Route.of here directory).join Emission.indexPath).text? u = some index ∧
      RestKept (Route.of here directory) (s.outputs index) t u ∧
      (s.write? here directory base).map (fun write => write u) = some (u, .ok ()) := by
  rw [write?, Option.map_map, Option.map_eq_some_iff] at hw
  obtain ⟨index, hi, hw⟩ := hw
  rw [Function.comp_apply] at hw
  have hclear := clear_outputs h hi
  have hc : ∀ o ∈ s.outputs index, Route.Contained o.1 := fun o hmem => (hclear o hmem).1
  have htemp : ∀ q ∈ places (s.outputs index), ∀ n, ¬[temporaryName n] <+: q := by
    intro q hq
    obtain ⟨o, hmem, rfl⟩ := List.mem_map.mp hq
    exact (hclear o hmem).2
  have hstart := directory_start_of hh directory
  have hinstalled := install_cases ho hstart hc
  rw [hw] at hinstalled
  obtain ⟨_, d, w⟩ := hinstalled.written
  refine ⟨index, hi, fun f hf => ?_, ?_, w.restKept hc htemp, ?_⟩
  · have hmem : (f.path, f.contents) ∈ s.outputs index :=
      List.mem_append_left _ (List.mem_map_of_mem hf)
    exact w.text? (o := (f.path, f.contents)) hc hmem
  · have hmem : (Emission.indexPath, index) ∈ s.outputs index :=
      List.mem_append_right _ List.mem_cons_self
    exact w.text? (o := (Emission.indexPath, index)) hc hmem
  · rw [write?, hi, Option.map_some, Option.map_some, w.install_again hstart hc (by rw [hw])]

end

/-- A directory for output that holds an old dispatcher and a file of somebody else. -/
def usedOutput : FileTree :=
  .directory [("out", .directory [
    ("internal", .directory [("dispatcher.rs", .file "old"), ("notes.txt", .file "kept")])])]

private theorem ordered_usedOutput : usedOutput.Ordered := by
  have hall : ∀ {entries : SortedMap FileTree}, SortedMap.Ascending entries →
      (∀ e ∈ entries, e.2.Ordered) → (FileTree.directory entries).Ordered := fun ha he =>
    FileTree.ordered_directory.mpr ⟨ha, fun name inner hg => he _ (SortedMap.mem_of_get? hg)⟩
  refine hall (List.pairwise_singleton _ _) (List.forall_mem_singleton.mpr ?_)
  refine hall (List.pairwise_singleton _ _) (List.forall_mem_singleton.mpr ?_)
  refine hall (List.pairwise_pair.mpr (by decide +kernel))
    (List.forall_mem_cons.mpr ⟨?_, List.forall_mem_singleton.mpr ?_⟩)
  · exact FileTree.ordered_file _
  · exact FileTree.ordered_file _

/-- The old dispatcher is replaced and the other file stays. -/
theorem write_delivered_used :
    ∃ s u, Generation.run Emission.fieldMapper Generation.named Generation.named.types.introspector
        {} = .ok s ∧
      (s.write? [] "out" .relative).map (fun write => write usedOutput) = some (u, .ok ()) ∧
      ((Route.of [] "out").join s.dispatcher.path).text? u = some s.dispatcher.contents ∧
      s.dispatcher.path = Emission.dispatcherPath ∧
      u.at? ["out", "internal", "notes.txt"] = some (.file "kept") ∧
      (s.write? [] "out" .relative).map (fun write => write u) = some (u, .ok ()) := by
  obtain ⟨s, hs⟩ : ∃ s, Generation.run Emission.fieldMapper Generation.named
      Generation.named.types.introspector {} = .ok s :=
    Traversal.exists_of_isOk (by decide +kernel)
  have hresult : ((Generation.run Emission.fieldMapper Generation.named
      Generation.named.types.introspector {}).toOption.bind fun s =>
        (s.write? [] "out" .relative).map fun write => (write usedOutput).2) = some (.ok ()) := by
    decide +kernel
  have hkept : ((Generation.run Emission.fieldMapper Generation.named
      Generation.named.types.introspector {}).toOption.bind fun s =>
        (s.write? [] "out" .relative).map fun write =>
          kind? ["out", "internal", "notes.txt"] (write usedOutput).1) =
      some (some (.file "kept")) := by
    decide +kernel
  rw [hs, Except.toOption, Option.bind_some] at hresult hkept
  obtain ⟨write, hwrite, hresult⟩ := Option.map_eq_some_iff.mp hresult
  rw [hwrite, Option.map_some, Option.some_inj, FileTree.kind?_eq_file_iff] at hkept
  have hw : (s.write? [] "out" .relative).map (fun write => write usedOutput) =
      some ((write usedOutput).1, .ok ()) := by
    rw [hwrite, Option.map_some, ← hresult]
  obtain ⟨index, hi, hfiles, hindex, hrest, hagain⟩ :=
    write_delivered [] "out" .relative usedOutput _ hs ordered_usedOutput rfl hw
  obtain ⟨_, _, _, _, hd⟩ := Generation.exists_dispatcher_of_run hs
  refine ⟨s, _, hs, hw, hfiles s.dispatcher ?_, ?_, hkept, hagain⟩
  · exact List.mem_append_right _ List.mem_cons_self
  · rw [hd]
    rfl

end FileSet

end Switchboard
