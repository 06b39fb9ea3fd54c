import Switchboard.Proofs.Routes

/-! Making the directories along a route: when it succeeds, what it changes, and when it changes
nothing. -/

namespace Switchboard.FileAction

open FileTree (Kind kind? Ordered Grown)

variable {t u : FileTree} {p place : Place} {name : String} {steps rest : List String}

theorem bind_apply {α β : Type} (first : FileAction α) (next : α → FileAction β) (t : FileTree) :
    (first >>= next) t =
      match first t with
      | (u, .ok a) => next a u
      | (u, .error e) => (u, .error e) := rfl

/-- What the first step does depends on what kind of thing it leads to. -/
theorem createAlong_cons (place : Place) (name : String) (rest : List String) (t : FileTree) :
    createAlong place (name :: rest) t =
      match Route.step place name with
      | .error e => (t, .error e)
      | .ok next =>
        match kind? next t with
        | some .directory => createAlong next rest t
        | some (.file _) => (t, .error .exists)
        | none => createAlong next rest (t.set (some .empty) next) := by
  rw [createAlong, bind_apply, ask]
  cases Route.step place name with
  | error e => rfl
  | ok next =>
    simp only [bind_apply, ask, kind?]
    rcases t.at? next with _ | _ | _ <;> rfl

/-- A new directory at a place that a step leads to. -/
theorem kind?_set_empty (ho : Ordered t) (hd : kind? place t = some .directory) {next : Place}
    (hs : Route.step place name = .ok next) (hn : kind? next t = none) (p : Place) :
    kind? p (t.set (some .empty) next) = if p = next then some .directory else kind? p t := by
  have hne : next ≠ [] := by
    rintro rfl
    rw [FileTree.kind?_nil] at hn
    cases hn
  refine FileTree.kind?_set_leaf ho ?_ hne (Route.directory_dropLast_of_step hs hd) ?_ p
  · intro name p
    rfl
  · rw [hn]
    simp

private theorem ordered_set_empty (ho : Ordered t) (next : Place) :
    Ordered (t.set (some .empty) next) := by
  refine FileTree.ordered_set ?_ next ho
  rintro _ ⟨⟩
  exact FileTree.ordered_empty

/-- A step from a place in one tree into a directory of another, which was there already or is all
that the other has more. -/
structure Enters (t : FileTree) (place : Place) (name : String) (next : Place) (u : FileTree) :
    Prop where
  step : Route.step place name = .ok next
  ordered : Ordered u
  kinds : ∀ p, kind? p u = if p = next then some .directory else kind? p t
  before : kind? next t = some .directory ∧ u = t ∨ kind? next t = none

namespace Enters

variable {next : Place}

theorem directory (h : Enters t place name next u) : kind? next u = some .directory := by
  rw [h.kinds, if_pos rfl]

theorem grown (h : Enters t place name next u) : Grown t u := by
  rcases h.before with ⟨-, rfl⟩ | hn
  · exact .refl u
  · intro p
    rw [h.kinds]
    by_cases hp : p = next
    · rw [if_pos hp, hp]
      exact .inr ⟨hn, rfl⟩
    · rw [if_neg hp]
      exact .inl rfl

private theorem plain (h : Enters t place name next u) (hn : name ≠ "..") :
    name.utf8ByteSize ≤ 255 ∧ next = place ++ [name] := by
  have hs := h.step
  rw [Route.step_plain hn] at hs
  split at hs
  · cases hs
  · cases hs
    exact ⟨by omega, rfl⟩

/-- A new directory where a step leads to nothing. -/
theorem of_missing (ho : Ordered t) (hd : kind? place t = some .directory)
    (hs : Route.step place name = .ok next) (hn : kind? next t = none) :
    Enters t place name next (t.set (some .empty) next) :=
  ⟨hs, ordered_set_empty ho next, kind?_set_empty ho hd hs hn, .inr hn⟩

end Enters

/-- The first step is stopped by a name that is too long or by a file, and then nothing happens, or
it enters a directory from which the others go on. -/
theorem createAlong_cases (ho : Ordered t) (hd : kind? place t = some .directory) (name : String)
    (rest : List String) :
    (∃ e, createAlong place (name :: rest) t = (t, .error e) ∧
      (Route.step place name = .error e ∨
        ∃ next c, Route.step place name = .ok next ∧ kind? next t = some (.file c))) ∨
    ∃ next u, Enters t place name next u ∧
      createAlong place (name :: rest) t = createAlong next rest u := by
  rw [createAlong_cons]
  cases hs : Route.step place name with
  | error e => exact .inl ⟨e, rfl, .inl rfl⟩
  | ok next =>
    simp only
    split
    · rename_i hn
      refine .inr ⟨next, t, ⟨hs, ho, fun p => ?_, .inl ⟨hn, rfl⟩⟩, rfl⟩
      split
      · rename_i hp
        rw [hp, hn]
      · rfl
    · rename_i c hn
      exact .inl ⟨_, rfl, .inr ⟨next, c, rfl, hn⟩⟩
    · rename_i hn
      exact .inr ⟨next, _, .of_missing ho hd hs hn, rfl⟩

/-- Directories are made, and nothing else happens. -/
theorem createAlong_grown (ho : Ordered t) (hd : kind? place t = some .directory)
    (steps : List String) :
    Ordered (createAlong place steps t).1 ∧ Grown t (createAlong place steps t).1 := by
  induction steps generalizing place t with
  | nil => exact ⟨ho, .refl t⟩
  | cons name rest ih =>
    rcases createAlong_cases ho hd name rest with ⟨e, he, -⟩ | ⟨next, v, hv, he⟩
    · rw [he]
      exact ⟨ho, .refl t⟩
    · rw [he]
      obtain ⟨hu, hg⟩ := ih hv.ordered hv.directory
      exact ⟨hu, hv.grown.trans hg⟩

/-- Directories that are made are where the route leads. -/
theorem follow_createAlong (ho : Ordered t) (hd : kind? place t = some .directory)
    (h : createAlong place steps t = (u, .ok ())) :
    ∃ p, Route.follow u place steps = .ok p ∧ kind? p u = some .directory := by
  induction steps generalizing place t with
  | nil =>
    cases h
    exact ⟨place, rfl, hd⟩
  | cons name rest ih =>
    have hg := (createAlong_grown ho hd (name :: rest)).2
    rw [h] at hg
    rcases createAlong_cases ho hd name rest with ⟨e, he, -⟩ | ⟨next, v, hv, he⟩
    · rw [he] at h
      cases h
    · rw [he] at h
      simp only [Route.follow_cons, hg.directory hd, hv.step]
      exact ih hv.ordered hv.directory h

/-- Where directories are already, none is made. -/
theorem createAlong_of_follow (hf : Route.follow t place steps = .ok p)
    (hp : kind? p t = some .directory) (rest : List String) :
    createAlong place (steps ++ rest) t = createAlong p rest t := by
  induction steps generalizing place with
  | nil =>
    cases hf
    rfl
  | cons name steps ih =>
    rw [Route.follow_cons] at hf
    rw [List.cons_append, createAlong_cons]
    split at hf
    · split at hf
      · rename_i next hs
        have hn : kind? next t = some .directory := by
          cases steps with
          | nil =>
            cases hf
            exact hp
          | cons other steps =>
            rw [Route.follow_cons] at hf
            split at hf
            · assumption
            · cases hf
            · cases hf
        simp only [hs, hn]
        exact ih hf
      · cases hf
    · cases hf
    · cases hf

/-! ## Without making any -/

/-- Whether a file or a name that is too long ends a route before anything is missing on it. -/
def Stopped (t : FileTree) : Place → List String → Prop
  | _, [] => False
  | place, name :: rest =>
    match Route.step place name with
    | .error _ => True
    | .ok next =>
      match kind? next t with
      | some .directory => Stopped t next rest
      | some (.file _) => True
      | none => False

theorem createAlong_of_stopped (h : Stopped t place steps) :
    ∃ e, createAlong place steps t = (t, .error e) := by
  induction steps generalizing place with
  | nil => cases h
  | cons name rest ih =>
    rw [Stopped] at h
    rw [createAlong_cons]
    split at h
    · exact ⟨_, rfl⟩
    · split at h
      · exact ih h
      · exact ⟨_, rfl⟩
      · cases h

/-- What has failed without making a directory has been stopped. -/
theorem stopped_of_createAlong (ho : Ordered t) (hd : kind? place t = some .directory)
    {e : FileError} (h : createAlong place steps t = (t, .error e)) : Stopped t place steps := by
  induction steps generalizing place with
  | nil => cases h
  | cons name rest ih =>
    rw [Stopped]
    rcases createAlong_cases ho hd name rest with
      ⟨e, -, hs | ⟨next, c, hs, hk⟩⟩ | ⟨next, v, hv, he⟩
    · simp only [hs]
    · simp only [hs, hk]
    · rw [he] at h
      rcases hv.before with ⟨hk, rfl⟩ | hk
      · simp only [hv.step, hk]
        exact ih hk h
      · -- the first directory that is made stays
        have hg := (createAlong_grown hv.ordered hv.directory rest).2.directory hv.directory
        rw [h, hk] at hg
        cases hg

/-! ## Routes without a step back -/

/-- Nothing happens but below where the steps start. -/
theorem createAlong_frame (ho : Ordered t) (hb : ".." ∉ steps)
    (hd : kind? place t = some .directory) (hp : ¬place <+: p) :
    kind? p (createAlong place steps t).1 = kind? p t := by
  induction steps generalizing place t with
  | nil => rfl
  | cons name rest ih =>
    obtain ⟨hn, hb'⟩ := List.ne_and_not_mem_of_not_mem_cons hb
    have hp' : ¬place ++ [name] <+: p := fun h => hp ((List.prefix_append place [name]).trans h)
    rcases createAlong_cases ho hd name rest with ⟨e, he, -⟩ | ⟨next, v, hv, he⟩
    · rw [he]
    · obtain ⟨-, rfl⟩ := hv.plain hn.symm
      rw [he, ih hv.ordered hb' hv.directory hp', hv.kinds, if_neg]
      rintro rfl
      exact hp' (List.prefix_refl _)

/-- Whether a file is on the way. -/
def FileOnWay (t : FileTree) (place : Place) (steps : List String) : Prop :=
  ∃ p, Route.Passes place steps p ∧ ∃ contents, kind? p t = some (.file contents)

private theorem fileOnWay_cons (hd : kind? place t = some .directory) :
    FileOnWay t place (name :: rest) ↔ FileOnWay t (place ++ [name]) rest := by
  constructor
  · rintro ⟨p, hp, c, hc⟩
    rcases Route.passes_cons.mp hp with rfl | hp
    · rw [hd] at hc
      cases hc
    · exact ⟨p, hp, c, hc⟩
  · rintro ⟨p, hp, c, hc⟩
    exact ⟨p, Route.passes_cons.mpr (.inr hp), c, hc⟩

/-- A file on the way keeps anything from being made. -/
theorem createAlong_of_fileOnWay (ho : Ordered t) (hb : ".." ∉ steps)
    (hd : kind? place t = some .directory) (h : FileOnWay t place steps) :
    ∃ e, createAlong place steps t = (t, .error e) := by
  induction steps generalizing place with
  | nil =>
    obtain ⟨p, hp, c, hc⟩ := h
    rw [Route.passes_nil.mp hp, hd] at hc
    cases hc
  | cons name rest ih =>
    obtain ⟨hn, hb'⟩ := List.ne_and_not_mem_of_not_mem_cons hb
    rw [fileOnWay_cons hd] at h
    rcases createAlong_cases ho hd name rest with ⟨e, he, -⟩ | ⟨next, v, hv, he⟩
    · exact ⟨e, he⟩
    · obtain ⟨-, rfl⟩ := hv.plain hn.symm
      rcases hv.before with ⟨hk, rfl⟩ | hk
      · rw [he]
        exact ih hb' hk h
      · -- below what is missing there is no file
        obtain ⟨_, ⟨⟨q, rfl⟩, -⟩, c, hc⟩ := h
        rw [FileTree.kind?_append_eq_none hk] at hc
        cases hc

/-- All directories on the way are there afterwards, and nothing else has changed. -/
theorem createAlong_plain (ho : Ordered t) (hb : ".." ∉ steps)
    (hd : kind? place t = some .directory) (h : createAlong place steps t = (u, .ok ())) :
    (∀ s ∈ steps, s.utf8ByteSize ≤ 255) ∧
      ∀ p, kind? p u = if Route.Passes place steps p then some .directory else kind? p t := by
  induction steps generalizing place t with
  | nil =>
    cases h
    refine ⟨fun s hs => absurd hs List.not_mem_nil, fun p => ?_⟩
    split
    · rename_i hp
      rw [Route.passes_nil.mp hp, hd]
    · rfl
  | cons name rest ih =>
    obtain ⟨hn, hb'⟩ := List.ne_and_not_mem_of_not_mem_cons hb
    rcases createAlong_cases ho hd name rest with ⟨e, he, -⟩ | ⟨next, v, hv, he⟩
    · rw [he] at h
      cases h
    · obtain ⟨hlen, rfl⟩ := hv.plain hn.symm
      rw [he] at h
      obtain ⟨hs, hk⟩ := ih hv.ordered hb' hv.directory h
      refine ⟨List.forall_mem_cons.mpr ⟨hlen, hs⟩, fun p => ?_⟩
      rw [hk, hv.kinds]
      simp only [Route.passes_cons]
      by_cases hp : p = place
      · subst hp
        simp [hd]
      · by_cases hq : p = place ++ [name]
        · simp [hq, Route.passes_start]
        · simp [hp, hq]

theorem createAlong_of_clear (ho : Ordered t) (hb : ".." ∉ steps)
    (hd : kind? place t = some .directory) (hs : ∀ s ∈ steps, s.utf8ByteSize ≤ 255)
    (hw : ¬FileOnWay t place steps) : ∃ u, createAlong place steps t = (u, .ok ()) := by
  induction steps generalizing place t with
  | nil => exact ⟨t, rfl⟩
  | cons name rest ih =>
    obtain ⟨hn, hb'⟩ := List.ne_and_not_mem_of_not_mem_cons hb
    obtain ⟨hlen, hs'⟩ := List.forall_mem_cons.mp hs
    have hstep : Route.step place name = .ok (place ++ [name]) := by
      rw [Route.step_plain hn.symm, if_neg (Nat.not_lt.mpr hlen)]
    rw [fileOnWay_cons hd] at hw
    rcases createAlong_cases ho hd name rest with
      ⟨e, -, he | ⟨next, c, he, hk⟩⟩ | ⟨next, v, hv, he⟩
    · rw [hstep] at he
      cases he
    · rw [hstep] at he
      cases he
      exact absurd ⟨_, Route.passes_start _ _, c, hk⟩ hw
    · obtain ⟨-, rfl⟩ := hv.plain hn.symm
      rw [he]
      refine ih hv.ordered hb' hv.directory hs' ?_
      rintro ⟨p, hp, c, hc⟩
      rw [hv.kinds] at hc
      split at hc
      · cases hc
      · exact hw ⟨p, hp, c, hc⟩

/-! ## Directories below a directory -/

variable {r : Route}

private theorem createDirectories_down_null (h : r.LeadsTo t p) (b : Bool)
    (hn : ∃ s ∈ steps, Route.IsNull s) :
    createDirectories (r.down steps b) t = (t, .error .nullInName) := by
  rw [createDirectories, if_pos ((Route.hasNull_down h steps b).mpr hn)]
  rfl

private theorem createDirectories_down (h : r.LeadsTo t p) (b : Bool)
    (hn : ∀ s ∈ steps, ¬Route.IsNull s) :
    createDirectories (r.down steps b) t = createAlong p steps t := by
  obtain ⟨-, hf⟩ := Route.place_eq_ok_iff.mp h.1
  have hnull : ¬(r.down steps b).hasNull = true := by
    rw [Route.hasNull_down h]
    rintro ⟨s, hs, hz⟩
    exact hn s hs hz
  rw [createDirectories, if_neg hnull]
  exact createAlong_of_follow hf h.2 steps

/-- The directory that a directory is in is there. -/
theorem createDirectories_parent (h : r.LeadsTo t p) :
    createDirectories r.parent t = (t, .ok ()) := by
  obtain ⟨hn, hf⟩ := Route.place_eq_ok_iff.mp h.1
  have hnull : ¬r.parent.hasNull = true := by
    rw [Route.hasNull_eq_true_iff]
    rintro ⟨s, hs, hz⟩
    exact hn s (List.dropLast_subset _ hs) hz
  rw [createDirectories, if_neg hnull, Route.parent]
  rcases r.steps.eq_nil_or_concat with hs | ⟨steps, name, hs⟩
  · rw [hs]
    rfl
  · rw [List.concat_eq_append] at hs
    rw [hs, Route.follow_append] at hf
    rw [hs, List.dropLast_concat]
    cases hm : Route.follow t r.start steps with
    | error e =>
      rw [hm] at hf
      cases hf
    | ok q =>
      rw [hm] at hf
      have hq : kind? q t = some .directory := by
        rw [Except.bind, Route.follow_cons] at hf
        split at hf
        · assumption
        · cases hf
        · cases hf
      have ha := createAlong_of_follow hm hq []
      rw [List.append_nil] at ha
      exact ha

/-- The directories that a file below a directory is in: all are there afterwards and nothing else
has changed, or some name is bad or a file is on the way. -/
theorem createParents_cases (ho : Ordered t) (hl : r.LeadsTo t p) (hb : ".." ∉ steps) (b : Bool) :
    (∃ u, createDirectories (r.down steps b).parent t = (u, .ok ()) ∧ Ordered u ∧ Grown t u ∧
      ¬FileOnWay t p steps.dropLast ∧
      ∀ q, kind? q u = if Route.Passes p steps.dropLast q then some .directory else kind? q t) ∨
    ∃ u e, createDirectories (r.down steps b).parent t = (u, .error e) ∧ Ordered u ∧ Grown t u ∧
      (∀ q, ¬p <+: q → kind? q u = kind? q t) ∧ (FileOnWay t p steps.dropLast → u = t) ∧
      ¬((∀ s ∈ steps, ¬Route.IsNull s ∧ s.utf8ByteSize ≤ 255) ∧
        ¬FileOnWay t p steps.dropLast) := by
  have hb' : ".." ∉ steps.dropLast := fun h => hb (List.dropLast_subset _ h)
  by_cases hs : steps = []
  · -- the directory itself is in a directory
    subst hs
    have hp : (r.down [] b).parent = r.parent := by
      rw [Route.parent, Route.down, List.append_nil, Route.parent]
    rw [hp, createDirectories_parent hl]
    refine .inl ⟨t, rfl, ho, .refl t, ?_, ?_⟩
    · rintro ⟨q, hq, c, hc⟩
      rw [Route.passes_nil.mp hq, hl.2] at hc
      cases hc
    · intro q
      split
      · rename_i hq
        rw [Route.passes_nil.mp hq, hl.2]
      · rfl
  · rw [Route.parent_down hs]
    by_cases hn : ∃ s ∈ steps.dropLast, Route.IsNull s
    · refine .inr ⟨t, _, createDirectories_down_null hl false hn, ho, .refl t, fun q _ => rfl,
        fun _ => rfl, ?_⟩
      rintro ⟨hall, -⟩
      obtain ⟨s, hs, hz⟩ := hn
      exact (hall s (List.dropLast_subset _ hs)).1 hz
    · rw [createDirectories_down hl false fun s hs hz => hn ⟨s, hs, hz⟩]
      obtain ⟨hu, hg⟩ := createAlong_grown ho hl.2 steps.dropLast
      have hframe := fun q => createAlong_frame (p := q) ho hb' hl.2
      cases hm : createAlong p steps.dropLast t with
      | mk u result =>
        rw [hm] at hu hg hframe
        cases result with
        | error e =>
          refine .inr ⟨u, e, rfl, hu, hg, hframe, ?_, ?_⟩
          · intro hw
            obtain ⟨e', he⟩ := createAlong_of_fileOnWay ho hb' hl.2 hw
            rw [hm] at he
            exact congrArg Prod.fst he
          · rintro ⟨hall, hw⟩
            obtain ⟨v, hv⟩ := createAlong_of_clear ho hb' hl.2
              (fun s hm => (hall s (List.dropLast_subset _ hm)).2) hw
            rw [hv] at hm
            cases hm
        | ok _ =>
          refine .inl ⟨u, rfl, hu, hg, ?_, (createAlong_plain ho hb' hl.2 hm).2⟩
          intro hw
          obtain ⟨e, he⟩ := createAlong_of_fileOnWay ho hb' hl.2 hw
          rw [hm] at he
          cases he

end Switchboard.FileAction
