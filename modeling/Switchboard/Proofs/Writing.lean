import Switchboard.Proofs.Installation

/-! When a failed write leaves everything as it was, and when it does not: what has been moved into
place before the failure stays there. -/

namespace Switchboard

open FileAction (createDirectories freshName? Stopped)
open FileTree (Kind kind? Ordered Grown laid)
open SortedMap (keys)

variable {r : Route} {d p q : Place} {base t u : FileTree}

/-- What a route leads to. -/
def Route.at? (r : Route) (t : FileTree) : Option FileTree :=
  match r.place t with
  | .ok p => t.at? p
  | .error _ => none

private theorem Route.LeadsTo.at? (h : r.LeadsTo t d) : r.at? t = t.at? d := by
  rw [Route.at?, h.1]

private theorem Route.leadsTo_of_at? {entries : SortedMap FileTree}
    (h : r.at? t = some (.directory entries)) : ∃ d, r.LeadsTo t d := by
  rw [Route.at?] at h
  split at h
  · rename_i d hp
    exact ⟨d, hp, FileTree.kind?_eq_directory_iff.mpr ⟨entries, h⟩⟩
  · cases h

/-- A name that is too long leads nowhere. -/
theorem Route.at?_eq_none_of_long (hb : ".." ∉ r.steps) {s : String} (hs : s ∈ r.steps)
    (hlong : 255 < s.utf8ByteSize) (t : FileTree) : r.at? t = none := by
  rw [Route.at?]
  split
  · rename_i p hp
    obtain ⟨-, hf⟩ := Route.place_eq_ok_iff.mp hp
    obtain ⟨-, hshort, -⟩ := (Route.follow_plain hb).mp hf
    exact absurd (hshort s hs) (by omega)
  · rfl

/-- Files that are there already change nothing. -/
theorem FileTree.laid_eq_self {files : List Place} {text : Place → String}
    (h : ∀ q ∈ files, kind? (d ++ q) base = some (.file (text q))) (hn : ∀ q ∈ files, q ≠ [])
    (p : Place) : laid d files text base p = kind? p base := by
  rw [laid]
  split
  · rename_i hfile
    obtain ⟨q, hq, rfl⟩ := hfile
    rw [h q hq, List.drop_left]
  · rename_i hfile
    split
    · rename_i hpass
      obtain ⟨q, hq, hpass⟩ := hpass
      have hne : p ≠ d ++ q := fun he => hfile ⟨q, hq, he⟩
      have hthere : kind? (d ++ q) base ≠ none := by simp [h q hq]
      exact (FileSet.directory_of_passes (hn q hq) hthere p
        (((Route.passes_iff_dropLast (hn q hq)).mp hpass).resolve_left hne)).symm
    · rfl

namespace FileSet

variable {outputs : List (String × String)} {e : FileError}

/-- Why a write can fail that leaves everything as it was. -/
inductive Undisturbed (t : FileTree) (r : Route) (outputs : List (String × String)) : Prop
  /-- The way to the directory is stopped before anything is missing on it. -/
  | unreachable (h : r.hasNull = true ∨ Stopped t r.start r.steps)
  /-- All names for a staging directory are taken. -/
  | unnamed {d : Place} {entries : SortedMap FileTree} (hl : r.LeadsTo t d)
    (hd : t.at? d = some (.directory entries))
    (hn : freshName? (keys entries ++ avoided outputs) = none)
  /-- The outputs cannot be staged. -/
  | unfit {d : Place} (hl : r.LeadsTo t d) (hf : ¬Fits outputs)
  /-- All outputs before the first that is kept from its place are there already. -/
  | unmoved {d : Place} {before after : List (String × String)} {o : String × String}
    (hl : r.LeadsTo t d) (hs : outputs = before ++ o :: after) (hb : Blocked d t before o)
    (hk : ∀ q ∈ places before, t.at? (d ++ q) = some (.file (lastText outputs q)))

/-- A directory that is there is not made. -/
theorem made_of_leadsTo (ho : Ordered t) (hl : r.LeadsTo t d) : Made r t t d := by
  obtain ⟨hn, hf⟩ := Route.place_eq_ok_iff.mp hl.1
  have hnull : ¬r.hasNull = true := by
    rw [Route.hasNull_eq_true_iff]
    rintro ⟨s, hs, hz⟩
    exact hn s hs hz
  refine ⟨?_, ho, .refl t, hl⟩
  rw [createDirectories, if_neg hnull, ← List.append_nil r.steps]
  exact FileAction.createAlong_of_follow hf hl.2 []

theorem Made.unique {base' : FileTree} {d' : Place} (h : Made r t base d) (h' : Made r t base' d') :
    base = base' ∧ d = d' := by
  have hb : base = base' := by
    have hm := h.made.symm.trans h'.made
    cases hm
    rfl
  subst hb
  refine ⟨rfl, ?_⟩
  have hd := h.leads.1.symm.trans h'.leads.1
  cases hd
  rfl

/-- If the directories that have been made stay and nothing is new, none has been made. -/
theorem Made.eq_of_kept (h : Made r t base d) (ho : Ordered t)
    (hk : ∀ p, kind? p base = some .directory → kind? p t = some .directory) : base = t := by
  refine FileTree.ext h.ordered ho fun p => ?_
  rcases h.grown p with hp | ⟨hn, hp⟩
  · exact hp
  · have hd := hk p hp
    rw [hn] at hd
    cases hd

/-- Whatever makes a write fail once the directory has been made, it leaves the outputs that have
been moved until then. -/
theorem Installed.left (h : Installed r outputs t (u, .error e))
    (hm : ∀ e, createDirectories r t ≠ (u, .error e)) :
    ∃ base d before, before <+: outputs ∧ Made r t base d ∧ Ordered u ∧
      (∀ q ∈ places before, base.Free d q) ∧
      ∀ p, kind? p u = laid d (places before) (lastText outputs) base p := by
  have hnil : ∀ {base : FileTree} {d : Place}, Made r t base d →
      ∃ base' d before, before <+: outputs ∧ Made r t base' d ∧ Ordered base ∧
        (∀ q ∈ places before, base'.Free d q) ∧
        ∀ p, kind? p base = laid d (places before) (lastText outputs) base' p := by
    intro base d hm
    refine ⟨base, d, [], List.nil_prefix, hm, hm.ordered, ?_, fun p => ?_⟩
    · intro q hq
      cases hq
    · exact (FileTree.laid_nil _ _ _ p).symm
  cases h with
  | unreachable h => exact absurd h (hm e)
  | unnamed hm hd hn => exact hnil hm
  | unfit hm hf => exact hnil hm
  | blocked hm hd hn hf hs hb hfree honce hl hk =>
    exact ⟨_, _, _, ⟨_, hs.symm⟩, hm, hl, hfree, hk⟩

/-- A failed write leaves the directories that could be made on the way, and below them the outputs
that have been moved until then. -/
theorem Installed.kinds_left (h : Installed r outputs t (u, .error e)) :
    ∃ d before, before <+: outputs ∧
      (before ≠ [] → r.LeadsTo (createDirectories r t).1 d) ∧
      ∀ p, kind? p u =
        laid d (places before) (lastText outputs) (createDirectories r t).1 p := by
  by_cases hm : ∃ e, createDirectories r t = (u, .error e)
  · obtain ⟨e, he⟩ := hm
    rw [he]
    refine ⟨[], [], List.nil_prefix, fun hne => absurd rfl hne, fun p => ?_⟩
    exact (FileTree.laid_nil _ _ _ p).symm
  · obtain ⟨base, d, before, hpre, hmade, -, -, hk⟩ := h.left fun e he => hm ⟨e, he⟩
    rw [hmade.made]
    exact ⟨d, before, hpre, fun _ => hmade.leads, hk⟩

/-- The first output that is kept from its place does not come after another one that is. -/
theorem places_subset_of_blocked {before after before' after' : List (String × String)}
    {o o' : String × String} (hs : outputs = before ++ o :: after)
    (hs' : outputs = before' ++ o' :: after') (hb : Blocked d base before' o')
    (hfree : ∀ q ∈ places before, base.Free d q) (honce : (places before).Nodup) :
    places before ⊆ places before' := by
  rcases List.append_eq_append_iff.mp (hs.symm.trans hs') with ⟨more, hm, -⟩ | ⟨more, hm, hr⟩
  · rw [hm, places_append]
    exact List.subset_append_left _ _
  · cases more with
    | nil =>
      rw [List.append_nil] at hm
      rw [hm]
      exact fun _ h => h
    | cons first more =>
      cases hr
      -- the one that is kept from its place would have been moved
      have hplaces : places before = places before' ++ Route.stepsOf o'.1 :: places more := by
        rw [hm, places_append]
        rfl
      rw [hplaces] at hfree honce
      refine absurd hb ?_
      rintro (hnot | hmem)
      · exact hnot (hfree _ (by simp))
      · exact (List.nodup_append.mp honce).2.2 _ hmem _ List.mem_cons_self rfl

/-- Directories whose making is stopped before anything is missing leave everything as it was. -/
theorem createDirectories_of_stopped (h : r.hasNull = true ∨ Stopped t r.start r.steps) :
    ∃ e, createDirectories r t = (t, .error e) := by
  rw [createDirectories]
  by_cases hn : r.hasNull = true
  · rw [if_pos hn]
    exact ⟨_, rfl⟩
  · rw [if_neg hn]
    exact FileAction.createAlong_of_stopped (h.resolve_left hn)

/-- Where everything is left as it was, making the directory changes nothing. -/
theorem Undisturbed.createDirectories_fst (hu : Undisturbed t r outputs) (ho : Ordered t) :
    (createDirectories r t).1 = t := by
  have hthere : ∀ {d : Place}, r.LeadsTo t d → (createDirectories r t).1 = t := by
    intro d hl
    rw [(made_of_leadsTo ho hl).made]
  cases hu with
  | unreachable hstop =>
    obtain ⟨e, he⟩ := createDirectories_of_stopped hstop
    rw [he]
  | unnamed hl => exact hthere hl
  | unfit hl => exact hthere hl
  | unmoved hl => exact hthere hl

private theorem Made.eq_of_undisturbed (hm : Made r t base d) (ho : Ordered t)
    (hu : Undisturbed t r outputs) : base = t := by
  have h := hu.createDirectories_fst ho
  rw [hm.made] at h
  exact h

/-- If the directory cannot be made, everything is as it was just if nothing was missing before that
was found out. -/
theorem eq_iff_of_unreachable (ho : Ordered t) (hd : kind? r.start t = some .directory)
    (h : createDirectories r t = (u, .error e)) : u = t ↔ Undisturbed t r outputs := by
  constructor
  · rintro rfl
    refine .unreachable ?_
    by_cases hn : r.hasNull = true
    · exact .inl hn
    · rw [createDirectories, if_neg hn] at h
      exact .inr (FileAction.stopped_of_createAlong ho hd h)
  · intro hu
    have hsame := hu.createDirectories_fst ho
    rw [h] at hsame
    exact hsame

/-- Moving what is there already changes nothing. -/
theorem eq_of_kept {before : List (String × String)} (ho : Ordered t) (hu : Ordered u)
    (hf : Fits outputs) (hsub : places before ⊆ places outputs)
    (hk : ∀ p, kind? p u = laid d (places before) (lastText outputs) t p)
    (hkept : ∀ q ∈ places before, t.at? (d ++ q) = some (.file (lastText outputs q))) : u = t := by
  refine FileTree.ext hu ho fun p => ?_
  rw [hk]
  refine FileTree.laid_eq_self (fun q hq => ?_) (fun q hq => hf.ne_nil (hsub hq)) p
  exact FileTree.kind?_eq_file_iff.mpr (hkept q hq)

/-- A failed write leaves everything as it was just in these cases. -/
theorem eq_iff_undisturbed (ho : Ordered t) (hd : kind? r.start t = some .directory)
    (h : Installed r outputs t (u, .error e)) : u = t ↔ Undisturbed t r outputs := by
  cases h with
  | unreachable h => exact eq_iff_of_unreachable ho hd h
  | unnamed hm hentries hn =>
    constructor
    · rintro rfl
      exact .unnamed hm.leads hentries hn
    · exact hm.eq_of_undisturbed ho
  | unfit hm hf =>
    constructor
    · rintro rfl
      exact .unfit hm.leads hf
    · exact hm.eq_of_undisturbed ho
  | blocked hm hentries hn hf hs hb hfree honce hl hk =>
    constructor
    · rintro rfl
      have hbase := hm.eq_of_kept ho fun p hp => by
        rw [hk]
        exact FileTree.laid_directory (fun q hq => (hfree q hq).2) hp
      subst hbase
      refine .unmoved hm.leads hs hb fun q hq => ?_
      rw [← FileTree.kind?_eq_file_iff, hk, FileTree.laid_of_mem hq]
    · intro hu
      have hbase := hm.eq_of_undisturbed ho hu
      subst hbase
      cases hu with
      | unreachable hstop =>
        obtain ⟨e', he⟩ := createDirectories_of_stopped hstop
        have hok := hm.made
        rw [he] at hok
        cases hok
      | unnamed hl' hentries' hn' =>
        obtain ⟨-, rfl⟩ := hm.unique (made_of_leadsTo ho hl')
        rw [hentries] at hentries'
        cases hentries'
        exact absurd hn' hn
      | unfit hl' hf' => exact absurd hf hf'
      | unmoved hl' hs' hb' hk' =>
        obtain ⟨-, rfl⟩ := hm.unique (made_of_leadsTo ho hl')
        have hsub := places_subset_of_blocked hs hs' hb' hfree honce
        refine eq_of_kept ho hl hf ?_ hk fun q hq => hk' q (hsub hq)
        rw [hs, places_append]
        exact List.subset_append_left _ _

/-- A directory that cannot be made is as it was. -/
theorem at?_of_unreachable (ho : Ordered t) (hd : kind? r.start t = some .directory)
    (hb : ".." ∉ r.steps) (h : createDirectories r t = (u, .error e)) : r.at? u = r.at? t := by
  by_cases hn : r.hasNull = true
  · rw [createDirectories, if_pos hn] at h
    cases h
    rfl
  · rw [createDirectories, if_neg hn] at h
    by_cases hw : FileAction.FileOnWay t r.start r.steps
    · obtain ⟨e', he⟩ := FileAction.createAlong_of_fileOnWay ho hb hd hw
      rw [h] at he
      cases he
      rfl
    · have hlong : ¬∀ s ∈ r.steps, s.utf8ByteSize ≤ 255 := by
        intro hshort
        obtain ⟨v, hv⟩ := FileAction.createAlong_of_clear ho hb hd hshort hw
        rw [h] at hv
        cases hv
      simp only [not_forall, not_le] at hlong
      obtain ⟨s, hs, hlong⟩ := hlong
      rw [Route.at?_eq_none_of_long hb hs hlong, Route.at?_eq_none_of_long hb hs hlong]

/-- As far as the directory is concerned that is written to, everything is as it was also if it
cannot be made. -/
theorem at?_eq_iff (ho : Ordered t) (hd : kind? r.start t = some .directory)
    (hb : ".." ∉ r.steps) (h : Installed r outputs t (u, .error e)) :
    r.at? u = r.at? t ↔ u = t ∨ ∃ left e, createDirectories r t = (left, .error e) := by
  by_cases hm : ∃ e, createDirectories r t = (u, .error e)
  · obtain ⟨e, he⟩ := hm
    exact iff_of_true (at?_of_unreachable ho hd hb he) (.inr ⟨u, e, he⟩)
  · obtain ⟨base, d, before, -, hmade, hou, hfree, hk⟩ := h.left fun e he => hm ⟨e, he⟩
    have hkeep : ∀ p, kind? p base = some .directory → kind? p u = some .directory := by
      intro p hp
      rw [hk]
      exact FileTree.laid_directory (fun q hq => (hfree q hq).2) hp
    constructor
    · intro hat
      have hl := hmade.leads.mono hkeep
      obtain ⟨entries, hentries⟩ := FileTree.kind?_eq_directory_iff.mp hl.2
      rw [hl.at?, hentries] at hat
      obtain ⟨d', hl'⟩ := Route.leadsTo_of_at? hat.symm
      obtain ⟨rfl, rfl⟩ := hmade.unique (made_of_leadsTo ho hl')
      rw [hl'.at?] at hat
      refine .inl (FileTree.ext hou ho fun p => ?_)
      by_cases hp : d <+: p
      · obtain ⟨q, rfl⟩ := hp
        rw [FileTree.kind?_append, FileTree.kind?_append, hentries, hat]
      · rw [hk, FileTree.laid_of_not_prefix hp]
    · rintro (rfl | ⟨left, e, he⟩)
      · rfl
      · rw [hmade.made] at he
        cases he

private theorem contained_indexPath : Route.Contained Emission.indexPath := by decide +kernel

private theorem contained_outputs {s : FileSet} (hc : ∀ f ∈ s.files, Route.Contained f.path)
    (index : String) : ∀ o ∈ s.outputs index, Route.Contained o.1 := by
  intro o ho
  rcases List.mem_append.mp ho with ho | ho
  · obtain ⟨f, hf, rfl⟩ := List.mem_map.mp ho
    exact hc f hf
  · rw [List.mem_singleton.mp ho]
    exact contained_indexPath

theorem directory_start_of {here : Place} (hh : kind? here t = some .directory) (name : String) :
    kind? (Route.of here name).start t = some .directory := by
  rw [Route.of]
  split
  · by_cases he : here = []
    · rw [he] at hh
      exact hh
    · exact FileTree.directory_of_above (p := []) he (by simp [hh])
  · exact hh

/-- What a failed write leaves: the directories that could be made on the way, and below them the
outputs that have been moved until then, but no staging directory. Everything is as it was just if
no directory had to be made on the way, and either nothing was moved into place or only what was
there already. As far as the directory is concerned that is written to, this is also so if it cannot
be made. -/
theorem write_failed (s : FileSet) (base : IncludeBase) (here : Place) (directory index : String)
    (t u : FileTree) (e : FileError) (ho : t.Ordered) (hh : kind? here t = some .directory)
    (hc : ∀ f ∈ s.files, Route.Contained f.path) (hi : s.index? base = some index)
    (hw : (s.write? here directory base).map (fun write => write t) = some (u, .error e)) :
    (u = t ↔ Undisturbed t (Route.of here directory) (s.outputs index)) ∧
      (".." ∉ Route.stepsOf directory →
        ((Route.of here directory).at? u = (Route.of here directory).at? t ↔
          u = t ∨ ∃ left e, createDirectories (Route.of here directory) t = (left, .error e))) ∧
      ∃ d before, before <+: s.outputs index ∧
        (before ≠ [] →
          (Route.of here directory).LeadsTo (createDirectories (Route.of here directory) t).1 d) ∧
        ∀ p, kind? p u = laid d (places before) (lastText (s.outputs index))
          (createDirectories (Route.of here directory) t).1 p := by
  have hd := directory_start_of hh directory
  rw [write?, hi, Option.map_some, Option.map_some, Option.some_inj] at hw
  have h := install_cases ho hd (contained_outputs hc index)
  rw [hw] at h
  exact ⟨eq_iff_undisturbed ho hd h, fun hb => at?_eq_iff ho hd hb h, h.kinds_left⟩

/-- Two files, one of which needs a directory where the other one is. -/
def clashing : FileSet where
  converters := [.of "internal/pets.rs" (some "pets") (Emission.code "pub struct PetsMapper ;")]
  dispatcher := .of "internal/pets.rs/dispatcher.rs" none (Emission.code "pub struct Dispatcher ;")

/-- A directory for output with nothing in it. -/
def bareOutput : FileTree := FileTree.empty.set (some .empty) ["out"]

private theorem not_fits_clashing (index : String) : ¬Fits (clashing.outputs index) := by
  intro hf
  have hpets : Route.stepsOf "internal/pets.rs" ∈ places (clashing.outputs index) := by
    simp [places, outputs, files, clashing, GeneratedFile.of]
  have hdispatcher : Route.stepsOf "internal/pets.rs/dispatcher.rs" ∈
      places (clashing.outputs index) := by
    simp [places, outputs, files, clashing, GeneratedFile.of]
  have hbelow : Route.stepsOf "internal/pets.rs" <+:
      Route.stepsOf "internal/pets.rs/dispatcher.rs" := by decide +kernel
  have hne : Route.stepsOf "internal/pets.rs" ≠
      Route.stepsOf "internal/pets.rs/dispatcher.rs" := by decide +kernel
  exact hne ((hf.apart hpets hdispatcher).1 hbelow)

theorem write_failed_clashing :
    (clashing.write? [] "out" .relative).map (fun write => write bareOutput) =
      some (bareOutput, .error .exists) := by
  have hindex : (clashing.index? .relative).isSome = true := by decide +kernel
  obtain ⟨index, hi⟩ := Option.isSome_iff_exists.mp hindex
  have hresult : ((clashing.write? [] "out" .relative).map fun write => (write bareOutput).2) =
      some (.error .exists) := by decide +kernel
  obtain ⟨write, hwrite, hresult⟩ := Option.map_eq_some_iff.mp hresult
  have hw : (clashing.write? [] "out" .relative).map (fun write => write bareOutput) =
      some ((write bareOutput).1, .error .exists) := by
    rw [hwrite, Option.map_some, ← hresult]
  have ho : bareOutput.Ordered := by
    refine FileTree.ordered_set (fun n hn => ?_) ["out"] FileTree.ordered_empty
    cases hn
    exact FileTree.ordered_empty
  have hl : (Route.of [] "out").LeadsTo bareOutput ["out"] :=
    ⟨by decide +kernel, by decide +kernel⟩
  have hfailed := write_failed clashing .relative [] "out" index bareOutput _ .exists ho rfl
    (by decide +kernel) hi hw
  rw [hw, hfailed.1.mpr (.unfit hl (not_fits_clashing index))]

/-- Two files that fit together. -/
def petFiles : FileSet where
  converters :=
    [.of "internal/mapper/pets.rs" (some "pets") (Emission.code "pub struct PetsMapper ;")]
  dispatcher := .of Emission.dispatcherPath none (Emission.code "pub struct Dispatcher ;")

/-- There is a directory where the dispatcher would be. -/
def occupied : FileTree :=
  .directory [("out", .directory [("internal", .directory [("dispatcher.rs", .directory [])])])]

/-- A converter that has been moved before the dispatcher is kept from its place stays there. -/
theorem write_failed_occupied :
    ∃ left, (petFiles.write? [] "out" .relative).map (fun write => write occupied) =
        some (left, .error .isDirectory) ∧
      kind? ["out", "internal", "mapper"] occupied = none ∧
      kind? ["out", "internal", "mapper", "pets.rs"] left =
        some (.file "// @generated by typemux. Do not edit.\npub struct PetsMapper ;\n") ∧
      (Route.of [] "out").at? left ≠ (Route.of [] "out").at? occupied := by
  have hresult : ((petFiles.write? [] "out" .relative).map fun write => (write occupied).2) =
      some (.error .isDirectory) := by decide +kernel
  have hpets : ((petFiles.write? [] "out" .relative).map fun write =>
      kind? ["out", "internal", "mapper", "pets.rs"] (write occupied).1) =
      some (some (.file "// @generated by typemux. Do not edit.\npub struct PetsMapper ;\n")) := by
    decide +kernel
  have hplace : ((petFiles.write? [] "out" .relative).map fun write =>
      (Route.of [] "out").place (write occupied).1) = some (.ok ["out"]) := by decide +kernel
  obtain ⟨write, hwrite, hresult⟩ := Option.map_eq_some_iff.mp hresult
  rw [hwrite, Option.map_some, Option.some_inj] at hpets hplace
  have hafter : (Route.of [] "out").at? (write occupied).1 = (write occupied).1.at? ["out"] := by
    rw [Route.at?, hplace]
  have hbefore : (Route.of [] "out").at? occupied = occupied.at? ["out"] :=
    Route.LeadsTo.at? ⟨by decide +kernel, by decide +kernel⟩
  have hmissing : kind? ["out", "internal", "mapper", "pets.rs"] occupied = none := by
    decide +kernel
  refine ⟨(write occupied).1, ?_, by decide +kernel, hpets, fun hat => ?_⟩
  · rw [hwrite, Option.map_some, ← hresult]
  · rw [hafter, hbefore] at hat
    have hsame : kind? (["out"] ++ ["internal", "mapper", "pets.rs"]) (write occupied).1 =
        kind? (["out"] ++ ["internal", "mapper", "pets.rs"]) occupied := by
      rw [FileTree.kind?_append, FileTree.kind?_append, hat]
    rw [List.singleton_append, hpets, hmissing] at hsame
    cases hsame

end FileSet

end Switchboard
