import Switchboard.FileTree.Action
import Switchboard.Proofs.FileTree

/-! Following routes through a file tree and making directories along them. -/

namespace Switchboard

open FileTree (Kind kind? Ordered)

variable {t u : FileTree} {p place : Place} {steps rest : List String}

/-- Whether a tree is another one with some directories where nothing was. -/
def FileTree.Grown (t u : FileTree) : Prop :=
  ∀ p, kind? p u = kind? p t ∨ kind? p t = none ∧ kind? p u = some .directory

namespace FileTree.Grown

theorem refl (t : FileTree) : Grown t t := fun _ => .inl rfl

theorem trans {v : FileTree} (h : Grown t u) (g : Grown u v) : Grown t v := by
  intro p
  rcases h p with hp | ⟨hn, hp⟩
  · rw [← hp]
    exact g p
  · rcases g p with gp | ⟨gn, gp⟩
    · exact .inr ⟨hn, gp.trans hp⟩
    · exact .inr ⟨hn, gp⟩

theorem directory (h : Grown t u) (hp : kind? p t = some .directory) :
    kind? p u = some .directory := by
  rcases h p with hk | ⟨hn, hk⟩
  · rw [hk, hp]
  · exact hk

end FileTree.Grown

namespace Route

/-- A step that does not lead back goes to a name that is not too long. -/
theorem step_plain {name : String} (h : name ≠ "..") (place : Place) :
    step place name =
      if 255 < name.utf8ByteSize then .error .nameTooLong else .ok (place ++ [name]) := by
  rw [step, if_neg (by simpa using h)]

/-- A step from a directory leads into a directory. -/
theorem directory_dropLast_of_step {name : String} {next : Place} (h : step place name = .ok next)
    (hp : kind? place t = some .directory) : kind? next.dropLast t = some .directory := by
  have hup : ∀ q : Place, kind? q t = some .directory → kind? q.dropLast t = some .directory := by
    intro q hq
    rcases q.eq_nil_or_concat with rfl | ⟨q', name, rfl⟩
    · exact hq
    · rw [List.concat_eq_append] at hq
      rw [List.concat_eq_append, List.dropLast_concat]
      exact FileTree.directory_of_above (q := [name]) (by simp) (by rw [hq]; simp)
  simp only [step] at h
  split at h
  · cases h
    exact hup _ (hup _ hp)
  · split at h
    · cases h
    · cases h
      rw [List.dropLast_concat]
      exact hp

theorem follow_cons (t : FileTree) (place : Place) (name : String) (rest : List String) :
    follow t place (name :: rest) =
      match kind? place t with
      | some .directory =>
        match step place name with
        | .ok next => follow t next rest
        | .error e => .error e
      | some (.file _) => .error .notDirectory
      | none => .error .missing := by
  rw [follow, kind?]
  rcases t.at? place with _ | _ | _ <;> rfl

theorem follow_append (t : FileTree) (place : Place) (steps rest : List String) :
    follow t place (steps ++ rest) = (follow t place steps).bind fun p => follow t p rest := by
  induction steps generalizing place with
  | nil => rfl
  | cons name steps ih =>
    rw [List.cons_append, follow_cons, follow_cons]
    rcases kind? place t with _ | _ | _
    · rfl
    · rfl
    · simp only
      cases step place name with
      | error e => rfl
      | ok next => exact ih next

/-- Where a route leads does not change while directories stay directories. -/
theorem follow_mono (h : ∀ p, kind? p t = some .directory → kind? p u = some .directory)
    (hf : follow t place steps = .ok p) : follow u place steps = .ok p := by
  induction steps generalizing place with
  | nil => exact hf
  | cons name steps ih =>
    rw [follow_cons] at hf
    rw [follow_cons]
    split at hf
    · rename_i hd
      rw [h place hd]
      cases hs : step place name with
      | error e =>
        rw [hs] at hf
        cases hf
      | ok next =>
        rw [hs] at hf
        exact ih hf
    · cases hf
    · cases hf

/-- A step that does not lead back is followed from a directory, to a name that is not too long. -/
theorem follow_cons_plain {name : String} (h : name ≠ "..") :
    follow t place (name :: steps) = .ok p ↔ kind? place t = some .directory ∧
      name.utf8ByteSize ≤ 255 ∧ follow t (place ++ [name]) steps = .ok p := by
  rw [follow_cons, step_plain h]
  by_cases hl : 255 < name.utf8ByteSize
  · rw [if_pos hl]
    rcases kind? place t with _ | _ | _ <;> simp [Nat.not_le.mpr hl]
  · rw [if_neg hl]
    rcases kind? place t with _ | _ | _ <;> simp [Nat.le_of_not_lt hl]

/-- A route without a step back leads straight down, through directories. -/
theorem follow_plain (hb : ".." ∉ steps) :
    follow t place steps = .ok p ↔
      p = place ++ steps ∧ (∀ s ∈ steps, s.utf8ByteSize ≤ 255) ∧
        ∀ q, q <+: steps → q ≠ steps → kind? (place ++ q) t = some .directory := by
  induction steps generalizing place with
  | nil =>
    rw [follow, Except.ok.injEq, List.append_nil]
    constructor
    · rintro rfl
      refine ⟨rfl, fun s hs => absurd hs List.not_mem_nil, fun q hq hne => ?_⟩
      exact absurd (List.prefix_nil.mp hq) hne
    · rintro ⟨rfl, -, -⟩
      rfl
  | cons name steps ih =>
    obtain ⟨hn, hb'⟩ := List.ne_and_not_mem_of_not_mem_cons hb
    rw [follow_cons_plain hn.symm, ih hb', List.append_assoc, List.singleton_append,
      List.forall_mem_cons]
    constructor
    · rintro ⟨hd, hl, hp, hs, hq⟩
      refine ⟨hp, ⟨hl, hs⟩, fun q hpre hne => ?_⟩
      cases q with
      | nil => rwa [List.append_nil]
      | cons first q =>
        obtain ⟨rfl, hrest⟩ := List.cons_prefix_cons.mp hpre
        have := hq q hrest fun he => hne (by rw [he])
        rwa [List.append_assoc] at this
    · rintro ⟨hp, ⟨hl, hs⟩, hq⟩
      have hd := hq [] List.nil_prefix (List.cons_ne_nil name steps).symm
      rw [List.append_nil] at hd
      refine ⟨hd, hl, hp, hs, fun q hpre hne => ?_⟩
      rw [List.append_assoc]
      exact hq (name :: q) (List.cons_prefix_cons.mpr ⟨rfl, hpre⟩) fun he =>
        hne (List.cons.inj he).2

/-! ## Routes to directories and on from there -/

/-- Whether a route leads to a directory. -/
def LeadsTo (r : Route) (t : FileTree) (p : Place) : Prop :=
  r.place t = .ok p ∧ kind? p t = some .directory

/-- The route with some more steps. -/
def down (r : Route) (steps : List String) (directory : Bool) : Route :=
  ⟨r.start, r.steps ++ steps, directory⟩

/-- Whether the null character is in a name. -/
def IsNull (name : String) : Prop := '\x00' ∈ name.toList

variable {r : Route}

theorem hasNull_eq_true_iff : r.hasNull = true ↔ ∃ s ∈ r.steps, IsNull s := by
  simp [hasNull, IsNull]

theorem place_eq_ok_iff :
    r.place t = .ok p ↔ (∀ s ∈ r.steps, ¬IsNull s) ∧ follow t r.start r.steps = .ok p := by
  rw [place]
  by_cases hn : r.hasNull
  · rw [if_pos hn]
    obtain ⟨s, hs, hz⟩ := hasNull_eq_true_iff.mp hn
    constructor
    · rintro ⟨⟩
    · rintro ⟨h, -⟩
      exact absurd hz (h s hs)
  · rw [if_neg hn]
    have h : ∀ s ∈ r.steps, ¬IsNull s := fun s hs hz => hn (hasNull_eq_true_iff.mpr ⟨s, hs, hz⟩)
    exact (and_iff_right h).symm

theorem LeadsTo.mono (h : r.LeadsTo t p)
    (hd : ∀ p, kind? p t = some .directory → kind? p u = some .directory) : r.LeadsTo u p := by
  obtain ⟨hn, hf⟩ := place_eq_ok_iff.mp h.1
  exact ⟨place_eq_ok_iff.mpr ⟨hn, follow_mono hd hf⟩, hd p h.2⟩

theorem hasNull_down (h : r.LeadsTo t p) (steps : List String) (b : Bool) :
    (r.down steps b).hasNull = true ↔ ∃ s ∈ steps, IsNull s := by
  obtain ⟨hn, -⟩ := place_eq_ok_iff.mp h.1
  rw [hasNull_eq_true_iff]
  constructor
  · rintro ⟨s, hs, hz⟩
    rcases List.mem_append.mp hs with hs | hs
    · exact absurd hz (hn s hs)
    · exact ⟨s, hs, hz⟩
  · rintro ⟨s, hs, hz⟩
    exact ⟨s, List.mem_append_right r.steps hs, hz⟩

/-- From a directory on, only the steps that are left count. -/
theorem place_down (h : r.LeadsTo t p) (steps : List String) (b : Bool) {q : Place} :
    (r.down steps b).place t = .ok q ↔ (∀ s ∈ steps, ¬IsNull s) ∧ follow t p steps = .ok q := by
  obtain ⟨hn, hf⟩ := place_eq_ok_iff.mp h.1
  rw [place_eq_ok_iff]
  have hfa : follow t (r.down steps b).start (r.down steps b).steps = follow t p steps := by
    rw [down, follow_append, hf]
    rfl
  rw [hfa]
  refine and_congr_left fun _ => ?_
  constructor
  · intro ha s hs
    exact ha s (List.mem_append_right r.steps hs)
  · intro ha s hs
    rcases List.mem_append.mp hs with hs | hs
    · exact hn s hs
    · exact ha s hs

theorem parent_down (hs : steps ≠ []) (b : Bool) :
    (r.down steps b).parent = r.down steps.dropLast false := by
  rw [parent, down, down, List.dropLast_append_of_ne_nil hs]

/-- Whether the name of a file leads down from where it starts. -/
def Contained (path : String) : Prop :=
  path.toList.head? ≠ some '/' ∧ ".." ∉ stepsOf path

instance (path : String) : Decidable (Contained path) := inferInstanceAs (Decidable (_ ∧ _))

theorem join_of_contained {path : String} (h : Contained path) (r : Route) :
    r.join path = r.down (stepsOf path) (endsInDirectory path) := by
  rw [join, if_neg (by simpa using h.1)]
  rfl

/-! ## Places on the way -/

/-- Whether steps that do not lead back pass a place, where they start and end included. -/
def Passes (place : Place) (steps : List String) (p : Place) : Prop :=
  place <+: p ∧ p <+: place ++ steps

instance : Decidable (Passes place steps p) := inferInstanceAs (Decidable (_ ∧ _))

theorem passes_append {q : Place} : Passes place steps (place ++ q) ↔ q <+: steps := by
  rw [Passes, List.prefix_append_right_inj]
  exact and_iff_right (List.prefix_append place q)

theorem passes_start (place : Place) (steps : List String) : Passes place steps place :=
  ⟨List.prefix_refl place, List.prefix_append place steps⟩

theorem passes_nil : Passes place [] p ↔ p = place := by
  constructor
  · rintro ⟨⟨q, rfl⟩, hq⟩
    rw [List.prefix_append_right_inj, List.prefix_nil] at hq
    rw [hq, List.append_nil]
  · rintro rfl
    exact passes_start p []

theorem passes_cons {name : String} :
    Passes place (name :: rest) p ↔ p = place ∨ Passes (place ++ [name]) rest p := by
  constructor
  · rintro ⟨⟨q, rfl⟩, hp⟩
    rw [List.prefix_append_right_inj] at hp
    cases q with
    | nil => exact .inl (List.append_nil place)
    | cons first q =>
      obtain ⟨rfl, hq⟩ := List.cons_prefix_cons.mp hp
      refine .inr ?_
      rw [List.append_cons place first q, passes_append]
      exact hq
  · rintro (rfl | ⟨hp, hq⟩)
    · exact passes_start p _
    · rw [List.append_assoc] at hq
      exact ⟨(List.prefix_append place [name]).trans hp, hq⟩

/-- The way to a place is the place and the way to where it is. -/
theorem prefix_iff_dropLast {q : Place} (hs : steps ≠ []) :
    q <+: steps ↔ q = steps ∨ q <+: steps.dropLast := by
  rcases steps.eq_nil_or_concat with rfl | ⟨init, last, rfl⟩
  · exact absurd rfl hs
  · rw [List.concat_eq_append, List.dropLast_concat, List.prefix_concat_iff]

theorem prefix_dropLast_iff {q : Place} (hs : steps ≠ []) :
    q <+: steps.dropLast ↔ q <+: steps ∧ q ≠ steps := by
  constructor
  · intro h
    refine ⟨h.trans (List.dropLast_prefix steps), ?_⟩
    rintro rfl
    have := h.length_le
    have := List.length_pos_iff.mpr hs
    rw [List.length_dropLast] at *
    omega
  · rintro ⟨h, hne⟩
    exact ((prefix_iff_dropLast hs).mp h).resolve_left hne

theorem passes_iff_dropLast (hs : steps ≠ []) :
    Passes place steps p ↔ p = place ++ steps ∨ Passes place steps.dropLast p := by
  constructor
  · rintro ⟨⟨q, rfl⟩, hp⟩
    rw [List.prefix_append_right_inj, prefix_iff_dropLast hs] at hp
    rcases hp with rfl | hp
    · exact .inl rfl
    · exact .inr (passes_append.mpr hp)
  · rintro (rfl | ⟨hp, hq⟩)
    · exact passes_append.mpr (List.prefix_refl steps)
    · exact ⟨hp, hq.trans ((List.prefix_append_right_inj place).mpr (List.dropLast_prefix steps))⟩

/-- The place below a directory that a file with good names has, once the directories that it is in
are there. -/
theorem place_below (h : r.LeadsTo t place) (hb : ".." ∉ steps)
    (hs : ∀ s ∈ steps, ¬IsNull s ∧ s.utf8ByteSize ≤ 255)
    (hd : ∀ q, Passes place steps.dropLast q → kind? q t = some .directory) (b : Bool) :
    (r.down steps b).place t = .ok (place ++ steps) := by
  refine (place_down h steps b).mpr ⟨fun s hm => (hs s hm).1, (follow_plain hb).mpr
    ⟨rfl, fun s hm => (hs s hm).2, fun q hq hne => hd _ (passes_append.mpr ?_)⟩⟩
  by_cases he : steps = []
  · rw [he, List.prefix_nil] at hq
    exact absurd (hq.trans he.symm) hne
  · exact (prefix_dropLast_iff he).mpr ⟨hq, hne⟩

theorem not_passes_dropLast (hs : steps ≠ []) : ¬Passes place steps.dropLast (place ++ steps) := by
  rw [passes_append, prefix_dropLast_iff hs]
  exact fun h => h.2 rfl

end Route

end Switchboard
