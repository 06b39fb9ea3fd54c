import Mathlib.Data.String.Basic
import Switchboard.Proofs.Promotion

/-! Writing a set of files by way of a staging directory, and what it leaves when it fails. -/

namespace Switchboard

open FileAction (bind_apply createAlong createDirectories freshName? temporaryName)
open FileTree (Kind kind? Ordered Grown laid)
open SortedMap (keys)

variable {r : Route} {d p q : Place} {name : String} {base t u : FileTree}

/-! ## Names of staging directories -/

namespace FileAction

theorem toList_temporaryName (n : Nat) :
    (temporaryName n).toList = ['.', 't', 'm', 'p'] ++
      (List.range 6).map fun i => nameAlphabet.getD (n / Nat.pow 62 i % 62) 'A' := by
  rw [temporaryName, String.toList_ofList]
  rfl

/-- The characters of a temporary name are a dot, letters and digits. -/
theorem mem_toList_temporaryName {n : Nat} {c : Char} (h : c ∈ (temporaryName n).toList) :
    c ∈ '.' :: nameAlphabet := by
  rw [toList_temporaryName] at h
  rcases List.mem_append.mp h with h | h
  · have hall : ['.', 't', 'm', 'p'].all ('.' :: nameAlphabet).contains = true := by decide +kernel
    exact List.contains_iff_mem.mp (List.all_eq_true.mp hall c h)
  · obtain ⟨i, -, rfl⟩ := List.mem_map.mp h
    rw [List.getD_eq_getElem?_getD]
    cases hg : nameAlphabet[n / Nat.pow 62 i % 62]? with
    | none => decide +kernel
    | some c => exact List.mem_cons_of_mem _ (List.mem_of_getElem? hg)

private theorem not_mem_toList_temporaryName (n : Nat) :
    '/' ∉ (temporaryName n).toList ∧ '\x00' ∉ (temporaryName n).toList := by
  have hslash : '/' ∉ '.' :: nameAlphabet := by decide +kernel
  have hnull : '\x00' ∉ '.' :: nameAlphabet := by decide +kernel
  exact ⟨fun h => hslash (mem_toList_temporaryName h), fun h => hnull (mem_toList_temporaryName h)⟩

private theorem length_temporaryName (n : Nat) : (temporaryName n).toList.length = 10 := by
  rw [toList_temporaryName]
  simp

/-- A temporary name is one step. -/
theorem stepsOf_temporaryName (n : Nat) : Route.stepsOf (temporaryName n) = [temporaryName n] := by
  have hlen := length_temporaryName n
  rw [Route.stepsOf, List.splitOn_eq_singleton (not_mem_toList_temporaryName n).1,
    List.map_singleton, String.ofList_toList, List.filter_singleton]
  have hne : temporaryName n ≠ "" := fun h => by simp [h] at hlen
  have hdot : temporaryName n ≠ "." := fun h => by simp [h] at hlen
  have hkeep : (temporaryName n != "" && temporaryName n != ".") = true := by simp [hne, hdot]
  rw [hkeep]
  rfl

private theorem temporaryName_ne_dots (n : Nat) : temporaryName n ≠ ".." := by
  intro h
  have hlen := length_temporaryName n
  simp [h] at hlen

private theorem contained_temporaryName (n : Nat) : Route.Contained (temporaryName n) := by
  refine ⟨?_, ?_⟩
  · intro h
    exact (not_mem_toList_temporaryName n).1 (List.mem_of_mem_head? h)
  · rw [stepsOf_temporaryName, List.mem_singleton]
    exact Ne.symm (temporaryName_ne_dots n)

private theorem utf8Len_le (cs : List Char) : String.utf8Len cs ≤ 4 * cs.length := by
  induction cs with
  | nil => exact Nat.le_refl 0
  | cons c cs ih =>
    have := c.utf8Size_le_four
    rw [String.utf8Len_cons, List.length_cons]
    omega

/-- A temporary name is a proper one for a directory. -/
theorem proper_temporaryName (n : Nat) :
    ¬Route.IsNull (temporaryName n) ∧ (temporaryName n).utf8ByteSize ≤ 255 := by
  refine ⟨(not_mem_toList_temporaryName n).2, ?_⟩
  have hle := utf8Len_le (temporaryName n).toList
  rw [length_temporaryName, ← String.utf8ByteSize_ofList, String.ofList_toList] at hle
  omega

private theorem freshName?_spec {taken : List String} (h : freshName? taken = some name) :
    name ∉ taken ∧ ∃ n, name = temporaryName n := by
  rw [freshName?] at h
  have hm := List.mem_of_find?_eq_some h
  have hp := List.find?_some h
  obtain ⟨n, -, hn⟩ := List.mem_map.mp hm
  exact ⟨by simpa using hp, n, hn.symm⟩

end FileAction

/-! ## All that can happen -/

namespace FileSet

variable {outputs : List (String × String)}

/-- Whether a route's directories have been made and where it leads. -/
structure Made (r : Route) (t base : FileTree) (d : Place) : Prop where
  made : createDirectories r t = (base, .ok ())
  ordered : Ordered base
  grown : Grown t base
  leads : r.LeadsTo base d

/-- The names that a staging directory must not have. -/
def avoided (outputs : List (String × String)) : List String :=
  outputs.flatMap fun o => Route.stepsOf o.1

/-- What writing outputs below a directory can come to. -/
inductive Installed (r : Route) (outputs : List (String × String)) (t : FileTree) :
    FileTree × Except FileError Unit → Prop
  /-- The directory cannot be made. -/
  | unreachable {left : FileTree} {e : FileError} (h : createDirectories r t = (left, .error e)) :
    Installed r outputs t (left, .error e)
  /-- There is no name for a staging directory. -/
  | unnamed {base : FileTree} {d : Place} {entries : SortedMap FileTree} (hm : Made r t base d)
    (hd : base.at? d = some (.directory entries))
    (hn : freshName? (keys entries ++ avoided outputs) = none) :
    Installed r outputs t (base, .error .exists)
  /-- Staging fails. -/
  | unfit {base : FileTree} {d : Place} {e : FileError} (hm : Made r t base d)
    (hf : ¬Fits outputs) : Installed r outputs t (base, .error e)
  /-- Some outputs have been moved when one is kept from its place. -/
  | blocked {base left : FileTree} {d : Place} {entries : SortedMap FileTree} {e : FileError}
    {before after : List (String × String)} {o : String × String} (hm : Made r t base d)
    (hd : base.at? d = some (.directory entries))
    (hn : freshName? (keys entries ++ avoided outputs) ≠ none) (hf : Fits outputs)
    (hs : outputs = before ++ o :: after)
    (hb : Blocked d base before o) (hfree : ∀ q ∈ places before, base.Free d q)
    (honce : (places before).Nodup) (hl : Ordered left)
    (hk : ∀ p, kind? p left = laid d (places before) (lastText outputs) base p) :
    Installed r outputs t (left, .error e)
  /-- All outputs have been moved. -/
  | complete {base left : FileTree} {d : Place} (hm : Made r t base d) (hf : Fits outputs)
    (hfree : ∀ q ∈ places outputs, base.Free d q) (honce : (places outputs).Nodup)
    (hl : Ordered left)
    (hk : ∀ p, kind? p left = laid d (places outputs) (lastText outputs) base p) :
    Installed r outputs t (left, .ok ())

private theorem made_of_ok (ho : Ordered t) (hd : kind? r.start t = some .directory)
    (h : createDirectories r t = (base, .ok ())) : ∃ d, Made r t base d := by
  have hn : ¬r.hasNull = true := by
    intro hn
    rw [createDirectories, if_pos hn] at h
    cases h
  have ha := h
  rw [createDirectories, if_neg hn] at ha
  obtain ⟨hob, hg⟩ := FileAction.createAlong_grown ho hd r.steps
  rw [ha] at hob hg
  obtain ⟨d, hf, hk⟩ := FileAction.follow_createAlong ho hd ha
  refine ⟨d, h, hob, hg, Route.place_eq_ok_iff.mpr ⟨fun s hs hz => ?_, hf⟩, hk⟩
  exact hn (Route.hasNull_eq_true_iff.mpr ⟨s, hs, hz⟩)

theorem createStaging_eq (hl : r.LeadsTo t d) {entries : SortedMap FileTree}
    (hd : t.at? d = some (.directory entries)) (taken : List String) :
    createStaging r taken t =
      match freshName? (keys entries ++ taken) with
      | some name => (t.set (some .empty) (d ++ [name]), .ok name)
      | none => (t, .error .exists) := by
  simp only [createStaging, bind_apply, FileAction.ask, hl.1, hd]
  cases freshName? (keys entries ++ taken) <;> rfl

/-- The staging directory is taken away with all that is in it. -/
theorem kind?_remove (ho : Ordered t) (hd : kind? d t = some .directory) (name : String)
    (p : Place) :
    kind? p (t.set none (d ++ [name])) = if d ++ [name] <+: p then none else kind? p t := by
  refine FileTree.kind?_set ho none (by simp) ?_ p
  rw [List.dropLast_concat]
  exact hd

/-- If only the staging directory is new, nothing is new without it. -/
theorem remove_eq_of_kept (hob : Ordered base) (hot : Ordered t)
    (hd : kind? d base = some .directory) (hmissing : kind? (d ++ [name]) base = none)
    (hk : ∀ p, ¬d ++ [name] <+: p → kind? p t = kind? p base) :
    t.set none (d ++ [name]) = base := by
  have hdir : kind? d t = some .directory := by
    rw [hk, hd]
    intro h
    have := h.length_le
    rw [List.length_append, List.length_singleton] at this
    omega
  refine FileTree.ext (FileTree.ordered_set (by simp) _ hot) hob fun p => ?_
  rw [kind?_remove hot hdir]
  by_cases hp : d ++ [name] <+: p
  · obtain ⟨q, rfl⟩ := hp
    rw [if_pos (List.prefix_append _ q), FileTree.kind?_append_eq_none hmissing]
  · rw [if_neg hp, hk p hp]

/-- Without the staging directory only the outputs that have been moved are there. -/
theorem Promoted.removed {done : List (String × String)}
    (hp : Promoted d name outputs base done t) (hs : Setting r d name outputs base)
    (hsub : places done ⊆ places outputs) :
    Ordered (t.set none (d ++ [name])) ∧ ∀ p, kind? p (t.set none (d ++ [name])) =
      laid d (places done) (lastText outputs) base p := by
  refine ⟨FileTree.ordered_set (by simp) _ hp.ordered, fun p => ?_⟩
  rw [kind?_remove hp.ordered (hs.directory hp d hs.target.2)]
  by_cases hunder : d ++ [name] <+: p
  · obtain ⟨q, rfl⟩ := hunder
    have hname : ∀ a ∈ places done, ¬name :: q <+: a := fun a ha hpre =>
      hs.unused a (hsub ha) (hpre.subset List.mem_cons_self)
    have hm : name :: q ∉ places done := fun h => hname _ h (List.prefix_refl _)
    rw [if_pos (List.prefix_append _ q), List.append_assoc, List.singleton_append,
      FileTree.laid_append, if_neg hm, if_neg fun ⟨a, ha, hpre⟩ => hname a ha hpre]
    rw [List.append_cons, FileTree.kind?_append_eq_none hs.missing]
  · rw [if_neg hunder, hp.outside p hunder]

/-- A new staging directory is bare, and its route leads to it. -/
theorem staging_bare (ho : Ordered base) (hl : r.LeadsTo base d) {n : Nat} (b : Bool)
    (hmissing : kind? (d ++ [temporaryName n]) base = none) :
    let staged := base.set (some .empty) (d ++ [temporaryName n])
    Ordered staged ∧ Bare (d ++ [temporaryName n]) staged ∧
      (∀ p, ¬d ++ [temporaryName n] <+: p → kind? p staged = kind? p base) ∧
      r.LeadsTo staged d ∧
      (r.down [temporaryName n] b).LeadsTo staged (d ++ [temporaryName n]) := by
  have hstep : Route.step d (temporaryName n) = .ok (d ++ [temporaryName n]) := by
    have hlen := (FileAction.proper_temporaryName n).2
    rw [Route.step_plain (FileAction.temporaryName_ne_dots n), if_neg (by omega)]
  have hnew := FileAction.Enters.of_missing ho hl.2 hstep hmissing
  have hmono := hl.mono fun p => hnew.grown.directory (p := p)
  refine ⟨hnew.ordered, ⟨hnew.directory, fun q hq => ?_⟩, fun p hp => ?_, hmono, ?_, hnew.directory⟩
  · rw [hnew.kinds, if_neg fun h => hq (List.append_right_eq_self.mp h)]
    exact FileTree.kind?_append_eq_none hmissing q
  · rw [hnew.kinds, if_neg]
    rintro rfl
    exact hp (List.prefix_refl _)
  · refine Route.place_below hmono ?_ ?_ ?_ b
    · simpa using Ne.symm (FileAction.temporaryName_ne_dots n)
    · intro s hs
      rw [List.mem_singleton.mp hs]
      exact FileAction.proper_temporaryName n
    · intro q hq
      rw [Route.passes_nil.mp hq]
      exact hmono.2

/-- When all outputs are staged, none has been moved. -/
theorem promoted_nil {staged : FileTree} (hl : Laid (d ++ [name]) staged outputs t)
    (hb : Bare (d ++ [name]) staged)
    (hout : ∀ p, ¬d ++ [name] <+: p → kind? p staged = kind? p base) :
    Promoted d name outputs base [] t := by
  refine ⟨hl.ordered, fun p hp => ?_, fun q => ?_, ?_, List.nodup_nil⟩
  · rw [hl.kinds, FileTree.laid_of_not_prefix hp, hout p hp]
    exact (FileTree.laid_nil _ _ _ p).symm
  · rw [hl.kind?_staged hb, if_neg]
    exact List.not_mem_nil
  · intro q hq
    cases hq

/-- What happens once there is a staging directory. -/
theorem installed_of_staging (hm : Made r t base d) (hc : ∀ o ∈ outputs, Route.Contained o.1)
    {entries : SortedMap FileTree} (hd : base.at? d = some (.directory entries))
    (hn : freshName? (keys entries ++ avoided outputs) ≠ none) {n : Nat} (b : Bool)
    (hunused : ∀ q ∈ places outputs, temporaryName n ∉ q)
    (hmissing : kind? (d ++ [temporaryName n]) base = none) :
    Installed r outputs t (FileAction.ensuring
      (do
        stage (r.down [temporaryName n] b) outputs
        promote (r.down [temporaryName n] b) r outputs)
      (fun t => t.set none (d ++ [temporaryName n]))
      (base.set (some .empty) (d ++ [temporaryName n]))) := by
  obtain ⟨ho, hbare, hout, -, hsource⟩ := staging_bare hm.ordered hm.leads b hmissing
  rw [FileAction.ensuring, bind_apply]
  have hstart : Laid (d ++ [temporaryName n]) (base.set (some .empty) (d ++ [temporaryName n])) []
      (base.set (some .empty) (d ++ [temporaryName n])) :=
    ⟨ho, fun p => (FileTree.laid_nil _ _ _ p).symm⟩
  have hnone : Fits [] := ⟨fun _ h => absurd h List.not_mem_nil, List.Pairwise.nil⟩
  rcases stage_cases hstart hbare hsource hc hnone with
    ⟨u, hu, hfits, hlaid⟩ | ⟨u, e, hu, hfits, hou, hframe⟩
  · rw [hu]
    simp only
    rw [List.nil_append] at hfits hlaid
    have hs : Setting r d (temporaryName n) outputs base :=
      ⟨hm.leads, FileAction.proper_temporaryName n, FileAction.temporaryName_ne_dots n, hunused,
        hmissing, hfits, hc⟩
    rcases hs.promote_cases (promoted_nil hlaid hbare hout) (List.nil_append outputs).symm b with
      ⟨v, hv, hdone⟩ | ⟨v, e, before, o, after, hv, hsplit, hb, hdone⟩
    · rw [hv]
      obtain ⟨hov, hkv⟩ := hdone.removed hs (fun _ h => h)
      exact .complete hm hfits hdone.free hdone.once hov hkv
    · rw [hv]
      have hsub : places before ⊆ places outputs := by
        rw [hsplit, places_append]
        exact List.subset_append_left _ _
      obtain ⟨hov, hkv⟩ := hdone.removed hs hsub
      exact .blocked hm hd hn hfits hsplit hb hdone.free hdone.once hov hkv
  · rw [hu]
    simp only
    have hkept : ∀ p, ¬d ++ [temporaryName n] <+: p → kind? p u = kind? p base := by
      intro p hp
      rw [hframe p hp, hout p hp]
    rw [remove_eq_of_kept hm.ordered hou hm.leads.2 hmissing hkept]
    rw [List.nil_append] at hfits
    exact .unfit hm hfits

/-- What happens in a directory that is there. -/
theorem installed_of_made (hm : Made r t base d) (hc : ∀ o ∈ outputs, Route.Contained o.1) :
    Installed r outputs t (install r outputs t) := by
  obtain ⟨entries, hd⟩ := FileTree.kind?_eq_directory_iff.mp hm.leads.2
  rw [install, bind_apply, hm.made]
  simp only
  rw [bind_apply, createStaging_eq hm.leads hd]
  cases hn : freshName? (keys entries ++ outputs.flatMap fun o => Route.stepsOf o.1) with
  | none => exact .unnamed hm hd hn
  | some name =>
    obtain ⟨hnew, n, rfl⟩ := FileAction.freshName?_spec hn
    have hmissing : kind? (d ++ [temporaryName n]) base = none := by
      have hkey : temporaryName n ∉ keys entries := fun h => hnew (List.mem_append_left _ h)
      rwa [FileTree.mem_keys_iff hd, not_not] at hkey
    have hunused : ∀ q ∈ places outputs, temporaryName n ∉ q := by
      intro q hq hmem
      obtain ⟨o, ho, rfl⟩ := List.mem_map.mp hq
      exact hnew (List.mem_append_right _ (List.mem_flatMap.mpr ⟨o, ho, hmem⟩))
    obtain ⟨-, -, -, -, hsource⟩ := staging_bare hm.ordered hm.leads
      (Route.endsInDirectory (temporaryName n)) hmissing
    simp only
    rw [Route.join_of_contained (FileAction.contained_temporaryName n),
      FileAction.stepsOf_temporaryName, bind_apply, FileAction.ask, hsource.1]
    refine installed_of_staging hm hc hd ?_ _ hunused hmissing
    rw [avoided, hn]
    simp

/-- What writing outputs below a directory comes to, whatever is there before. -/
theorem install_cases (ho : Ordered t) (hd : kind? r.start t = some .directory)
    (hc : ∀ o ∈ outputs, Route.Contained o.1) : Installed r outputs t (install r outputs t) := by
  cases hm : createDirectories r t with
  | mk base result =>
    cases result with
    | error e =>
      rw [install, bind_apply, hm]
      exact .unreachable hm
    | ok _ =>
      obtain ⟨d, hmade⟩ := made_of_ok ho hd hm
      exact installed_of_made hmade hc

end FileSet

end Switchboard
