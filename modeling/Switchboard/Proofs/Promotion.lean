import Switchboard.Proofs.Staging

/-! Moving staged files into place one after the other, up to the first that is kept from its place.
The files before that one stay where they have been moved to. -/

namespace Switchboard.FileSet

open FileAction (FileOnWay bind_apply)
open FileTree (Kind kind? Ordered Grown laid)

variable {r : Route} {d p q : Place} {name : String} {base t : FileTree}
  {outputs done rest : List (String × String)} {o : String × String}

/-- What is at each place of the staging directory when all outputs are staged. -/
def stagedKind (outputs : List (String × String)) (q : Place) : Option Kind :=
  if q ∈ places outputs then some (.file (lastText outputs q))
  else if q = [] ∨ ∃ a ∈ places outputs, q <+: a then some .directory
  else none

theorem Laid.kind?_staged (hl : Laid d base outputs t) (hb : Bare d base) (q : Place) :
    kind? (d ++ q) t = stagedKind outputs q := by
  rw [hl.kinds, FileTree.laid_append, stagedKind]
  by_cases hq : q = []
  · rw [hq, List.append_nil, hb.1]
    simp
  · rw [hb.2 q hq]
    simp only [hq, false_or]

/-- What is given when outputs that fit are moved into a directory from one in it that has a name
of its own. -/
structure Setting (r : Route) (d : Place) (name : String) (outputs : List (String × String))
    (base : FileTree) : Prop where
  target : r.LeadsTo base d
  proper : ¬Route.IsNull name ∧ name.utf8ByteSize ≤ 255
  forward : name ≠ ".."
  unused : ∀ q ∈ places outputs, name ∉ q
  missing : kind? (d ++ [name]) base = none
  fits : Fits outputs
  contained : ∀ o ∈ outputs, Route.Contained o.1

/-- Whether some outputs have been moved and the others are staged. -/
structure Promoted (d : Place) (name : String) (outputs : List (String × String)) (base : FileTree)
    (done : List (String × String)) (t : FileTree) : Prop where
  ordered : Ordered t
  outside : ∀ p, ¬d ++ [name] <+: p →
    kind? p t = laid d (places done) (lastText outputs) base p
  inside : ∀ q, kind? (d ++ [name] ++ q) t =
    if q ∈ places done then none else stagedKind outputs q
  free : ∀ q ∈ places done, base.Free d q
  once : (places done).Nodup

/-- Whether an output is kept from its place: a file is on the way or a directory is there, or an
output has been moved there before. -/
def Blocked (d : Place) (base : FileTree) (before : List (String × String))
    (o : String × String) : Prop :=
  ¬base.Free d (Route.stepsOf o.1) ∨ Route.stepsOf o.1 ∈ places before

private theorem not_under_staging (hq : name ∉ q) : ¬d ++ [name] <+: d ++ q := by
  rw [List.prefix_append_right_inj]
  rintro ⟨rest, rfl⟩
  exact hq (by simp)

namespace Setting

variable (hs : Setting r d name outputs base)
include hs

theorem directory (hp : Promoted d name outputs base done t) (p : Place)
    (hd : kind? p base = some .directory) : kind? p t = some .directory := by
  have hout : ¬d ++ [name] <+: p := by
    rintro ⟨q, rfl⟩
    rw [FileTree.kind?_append_eq_none hs.missing] at hd
    cases hd
  rw [hp.outside p hout]
  exact FileTree.laid_directory (fun q hq => (hp.free q hq).2) hd

/-- Both routes lead where they did. -/
theorem leadsTo (hp : Promoted d name outputs base done t) (hsub : places done ⊆ places outputs)
    (b : Bool) : r.LeadsTo t d ∧ (r.down [name] b).LeadsTo t (d ++ [name]) := by
  have ht := hs.target.mono (hs.directory hp)
  have hdir : kind? (d ++ [name]) t = some .directory := by
    have hi := hp.inside []
    have hnil : ([] : Place) ∉ places outputs := fun h => hs.fits.ne_nil h rfl
    rw [List.append_nil, if_neg fun h => hnil (hsub h), stagedKind, if_neg hnil,
      if_pos (.inl rfl)] at hi
    exact hi
  refine ⟨ht, Route.place_below ht ?_ ?_ ?_ b, hdir⟩
  · simpa using Ne.symm hs.forward
  · intro s hm
    rw [List.mem_singleton.mp hm]
    exact hs.proper
  · intro q hq
    rw [Route.passes_nil.mp hq]
    exact ht.2

/-- The directories on the way to a staged file are staged, and no file has been in their place. -/
theorem staged_directory (hp : Promoted d name outputs base done t)
    (hsub : places done ⊆ places outputs) (hq : q ∈ places outputs) (p : Place)
    (hpass : Route.Passes (d ++ [name]) q.dropLast p) : kind? p t = some .directory := by
  obtain ⟨⟨a, rfl⟩, hpre⟩ := hpass
  rw [List.prefix_append_right_inj, Route.prefix_dropLast_iff (hs.fits.ne_nil hq)] at hpre
  have hm : a ∉ places outputs := fun hm => hpre.2 ((hs.fits.apart hm hq).1 hpre.1)
  rw [hp.inside, if_neg fun h => hm (hsub h), stagedKind, if_neg hm,
    if_pos (.inr ⟨q, hq, hpre.1⟩)]

/-- Where an output belongs that has not been moved, there and on the way to it everything is as it
was. -/
theorem free_iff (hp : Promoted d name outputs base done t) (hsub : places done ⊆ places outputs)
    (hq : q ∈ places outputs) (hnew : q ∉ places done) : t.Free d q ↔ base.Free d q := by
  have hne := hs.fits.ne_nil hq
  have hway : ∀ a, a <+: q → a ≠ q → ∀ contents,
      kind? (d ++ a) t = some (.file contents) ↔ kind? (d ++ a) base = some (.file contents) := by
    intro a haq hneq contents
    have hm : a ∉ places done := fun hm => hneq ((hs.fits.apart (hsub hm) hq).1 haq)
    have hname : name ∉ a := fun h => hs.unused q hq (haq.subset h)
    rw [hp.outside _ (not_under_staging hname), FileTree.laid_append, if_neg hm]
    split
    · rename_i hex
      obtain ⟨b, hb, hab⟩ := hex
      constructor
      · intro h
        cases h
      · -- a file that was there would have kept the other one from its place
        intro hfile
        have hfree := (FileTree.free_iff (hs.fits.ne_nil (hsub hb))).mp (hp.free b hb)
        exact absurd hfile (hfree.1 a hab (fun he => hm (he ▸ hb)) contents)
    · exact Iff.rfl
  have hplace : kind? (d ++ q) t = kind? (d ++ q) base := by
    have hex : ¬∃ a ∈ places done, q <+: a := by
      rintro ⟨a, ha, hqa⟩
      exact hnew ((hs.fits.apart (hsub ha) hq).2 hqa ▸ ha)
    rw [hp.outside _ (not_under_staging (hs.unused q hq)), FileTree.laid_append, if_neg hnew,
      if_neg hex]
  rw [FileTree.free_iff hne, FileTree.free_iff hne, hplace]
  refine and_congr_left fun _ => ?_
  constructor
  · intro hfree a hpre hneq c hc
    exact hfree a hpre hneq c ((hway a hpre hneq c).mpr hc)
  · intro hfree a hpre hneq c hc
    exact hfree a hpre hneq c ((hway a hpre hneq c).mp hc)

/-- An output that is kept from its place is not moved, and nothing happens. -/
theorem blocked (hp : Promoted d name outputs base done t) (hsub : places done ⊆ places outputs)
    (ho : o ∈ outputs) (b : Bool) (hb : Blocked d base done o) :
    ∃ e, promoteFile ((r.down [name] b).join o.1) (r.join o.1) t = (t, .error e) := by
  have hq : Route.stepsOf o.1 ∈ places outputs := List.mem_map_of_mem ho
  obtain ⟨ht, hsource⟩ := hs.leadsTo hp hsub b
  refine promoteFile_blocked hp.ordered ht hsource (hs.contained o ho) (hs.fits.1 o ho)
    (hs.staged_directory hp hsub hq) ?_
  by_cases hm : Route.stepsOf o.1 ∈ places done
  · refine .inr ⟨?_, ?_⟩
    · rw [hp.outside _ (not_under_staging (hs.unused _ hq)), FileTree.laid_of_mem hm]
      simp
    · rw [hp.inside, if_pos hm]
  · refine .inl ?_
    rw [hs.free_iff hp hsub hq hm]
    exact hb.resolve_right hm

/-- Any other output is moved. -/
theorem moved (hp : Promoted d name outputs base done t) (hsub : places done ⊆ places outputs)
    (ho : o ∈ outputs) (b : Bool) (hb : ¬Blocked d base done o) :
    ∃ u, promoteFile ((r.down [name] b).join o.1) (r.join o.1) t = (u, .ok ()) ∧
      Promoted d name outputs base (done ++ [o]) u := by
  have hq : Route.stepsOf o.1 ∈ places outputs := List.mem_map_of_mem ho
  rw [Blocked, not_or, not_not] at hb
  obtain ⟨hfree, hm⟩ := hb
  obtain ⟨ht, hsource⟩ := hs.leadsTo hp hsub b
  have hfile : kind? (d ++ [name] ++ Route.stepsOf o.1) t =
      some (.file (lastText outputs (Route.stepsOf o.1))) := by
    rw [hp.inside, if_neg hm, stagedKind, if_pos hq]
  obtain ⟨u, hu, hou, hk⟩ := promoteFile_free hp.ordered ht hsource (hs.contained o ho)
    (hs.fits.1 o ho) (hs.staged_directory hp hsub hq) hfile
    ((hs.free_iff hp hsub hq hm).mpr hfree)
  have hname := hs.unused _ hq
  have hplaces : places (done ++ [o]) = places done ++ [Route.stepsOf o.1] := places_append done [o]
  refine ⟨u, hu, hou, ?_, ?_, ?_, ?_⟩
  · intro p hout
    have hne : p ≠ d ++ [name] ++ Route.stepsOf o.1 := by
      rintro rfl
      exact hout (List.prefix_append _ _)
    rw [hk, if_neg hne, hplaces]
    exact FileTree.laid_concat (fun a ha => hs.fits.apart (hsub ha) hq) (fun _ _ _ => rfl)
      (hp.outside p hout)
  · intro q
    rw [hk, hplaces]
    by_cases he : q = Route.stepsOf o.1
    · rw [if_pos (by rw [he]), if_pos (by simp [he])]
    · have hne : d ++ [name] ++ q ≠ d ++ [name] ++ Route.stepsOf o.1 :=
        fun h => he (List.append_cancel_left h)
      have hpass : ¬Route.Passes d (Route.stepsOf o.1) (d ++ [name] ++ q) := by
        rw [List.append_assoc, Route.passes_append]
        exact fun h => hname (h.subset List.mem_cons_self)
      have hplace : d ++ [name] ++ q ≠ d ++ Route.stepsOf o.1 := by
        intro h
        exact hpass (h ▸ Route.passes_append.mpr (List.prefix_refl _))
      rw [if_neg hne, FileAction.placed, if_neg hplace, if_neg hpass, hp.inside]
      simp [he]
  · intro q hqm
    rw [hplaces] at hqm
    rcases List.mem_append.mp hqm with h | h
    · exact hp.free q h
    · rw [List.mem_singleton.mp h]
      exact hfree
  · rw [hplaces, List.nodup_append]
    refine ⟨hp.once, List.pairwise_singleton _ _, fun a ha b hb he => ?_⟩
    rw [List.mem_singleton.mp hb] at he
    exact hm (he ▸ ha)

/-- Moving ends at the first output that is kept from its place. -/
theorem promote_cases (hp : Promoted d name outputs base done t) (hsplit : outputs = done ++ rest)
    (b : Bool) :
    (∃ u, promote (r.down [name] b) r rest t = (u, .ok ()) ∧
      Promoted d name outputs base outputs u) ∨
    ∃ u e before o after, promote (r.down [name] b) r rest t = (u, .error e) ∧
      outputs = before ++ o :: after ∧ Blocked d base before o ∧
      Promoted d name outputs base before u := by
  induction rest generalizing done t with
  | nil =>
    rw [List.append_nil] at hsplit
    exact .inl ⟨t, rfl, hsplit ▸ hp⟩
  | cons o rest ih =>
    have hsub : places done ⊆ places outputs := by
      rw [hsplit, places_append]
      exact List.subset_append_left _ _
    have ho : o ∈ outputs := by
      rw [hsplit]
      simp
    rw [promote, bind_apply]
    by_cases hb : Blocked d base done o
    · obtain ⟨e, he⟩ := hs.blocked hp hsub ho b hb
      rw [he]
      exact .inr ⟨t, e, done, o, rest, rfl, hsplit, hb, hp⟩
    · obtain ⟨u, hu, hp'⟩ := hs.moved hp hsub ho b hb
      rw [hu]
      exact ih hp' (by rw [hsplit, List.append_cons])

end Setting

end Switchboard.FileSet
