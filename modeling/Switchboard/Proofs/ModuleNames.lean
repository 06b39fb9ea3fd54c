import Mathlib.Data.List.TakeWhile
import Switchboard.Emission.FileSet
import Switchboard.FileTree.Route
import Switchboard.Proofs.Accessors

/-! Module names. The same text names a module in the index, is read as a name in the dispatcher and
becomes part of a file name. The three agree just if the text is a name and nothing else. -/

namespace Switchboard

open Text.Identifier (isContinue)

namespace Text.LetterCase

/-! What becomes a small r or a hash mark -/

private theorem exists_run_of_shift {runs : List (Nat × Nat × Nat × Int)} {n k : Nat}
    (h : shift runs n = some k) :
    ∃ run ∈ runs, run.1 ≤ n ∧ n ≤ run.2.1 ∧ k = ((n : Int) + run.2.2.2).toNat := by
  induction runs with
  | nil => cases h
  | cons run rest ih =>
    obtain ⟨first, last, step, distance⟩ := run
    rw [shift] at h
    split at h
    · rename_i hin
      simp only [Bool.and_eq_true, decide_eq_true_eq] at hin
      cases h
      exact ⟨_, List.mem_cons_self, hin.1.1, hin.1.2, rfl⟩
    · obtain ⟨run, hr, hrun⟩ := ih h
      exact ⟨run, List.mem_cons_of_mem _ hr, hrun⟩

/-- The code points of a small r and of a hash mark. -/
private def rawCodes : List Nat := [0x72, 0x23]

/-- No character beyond ASCII is shifted to one of them. -/
private theorem shift_lowering_ne {n k : Nat} (hn : 128 ≤ n) (hk : k ∈ rawCodes) :
    shift lowering n ≠ some k := by
  have hall : ∀ run ∈ lowering, ∀ k ∈ rawCodes,
      ¬ (128 ≤ (k : Int) - run.2.2.2 ∧ (run.1 : Int) ≤ k - run.2.2.2 ∧
        (k : Int) - run.2.2.2 ≤ run.2.1) := by
    decide +kernel
  have hpos : ∀ k ∈ rawCodes, 0 < k := by decide
  intro h
  obtain ⟨run, hr, hfirst, hlast, he⟩ := exists_run_of_shift h
  have := hall run hr k hk
  have := hpos k hk
  omega

private theorem toNat_ofNat_of_eq {n : Nat} {d : Char} (h : Char.ofNat n = d) (hd : 0 < d.toNat) :
    n = d.toNat := by
  by_cases hv : n.isValidChar
  · rw [Char.ofNat, dif_pos hv] at h
    subst h
    rfl
  · rw [Char.ofNat, dif_neg hv] at h
    subst h
    cases hd

private theorem mem_of_lookup {n : Nat} {table : List (Nat × List Nat)} {targets : List Nat}
    (h : table.lookup n = some targets) : (n, targets) ∈ table := by
  obtain ⟨before, after, rfl, _⟩ := List.lookup_eq_some_iff.mp h
  simp

private theorem lowerChar_ne_nil (c : Char) : lowerChar c ≠ [] := by
  unfold lowerChar mapped
  split
  · simp
  · split
    · rename_i targets ht
      have hall : ∀ e ∈ loweringLong, e.2 ≠ [] := by decide
      have hm := hall _ (mem_of_lookup ht)
      simpa using hm
    · split <;> simp

/-- Only an ASCII character may become a small r or a hash mark, and it becomes nothing more. -/
theorem lowerChar_eq_cons {c d : Char} {more : List Char} (hd : d.toNat ∈ rawCodes)
    (h : lowerChar c = d :: more) : c.toNat < 128 ∧ c.toLower = d ∧ more = [] := by
  unfold lowerChar at h
  split at h
  · rename_i hn
    cases h
    exact ⟨hn, rfl, rfl⟩
  · rename_i hn
    have hpos : 0 < d.toNat := by
      have : ∀ k ∈ rawCodes, 0 < k := by decide
      exact this _ hd
    unfold mapped at h
    split at h
    · rename_i targets ht
      have hall : ∀ e ∈ loweringLong, ∀ n ∈ e.2.head?, n ∉ rawCodes := by decide
      cases targets with
      | nil => cases h
      | cons n rest =>
        cases h
        exact absurd hd (toNat_ofNat_of_eq rfl hpos ▸ hall _ (mem_of_lookup ht) n rfl)
    · split at h
      · rename_i k hk
        cases h
        rw [← toNat_ofNat_of_eq rfl hpos] at hd
        exact absurd hk (shift_lowering_ne (Nat.le_of_not_lt hn) hd)
      · cases h
        have : ∀ k ∈ rawCodes, k < 128 := by decide
        exact absurd (this _ hd) hn

/-- A text that a small r or a hash mark begins in lower case begins with what becomes that. -/
theorem lowerFrom_append_eq_cons {before cs tail more : List Char} {d : Char}
    (hd : d.toNat ∈ rawCodes) (ht : tail.head? ≠ some d)
    (h : lowerFrom before cs ++ tail = d :: more) :
    ∃ c rest, cs = c :: rest ∧ c.toNat < 128 ∧ c.toLower = d ∧
      lowerFrom (c :: before) rest ++ tail = more := by
  cases cs with
  | nil =>
    rw [lowerFrom, List.nil_append] at h
    simp [h] at ht
  | cons c rest =>
    have hsigma : ∀ k ∈ rawCodes, k ≠ 'ς'.toNat ∧ k ≠ 'σ'.toNat := by decide
    refine ⟨c, rest, rfl, ?_⟩
    simp only [lowerFrom] at h
    split at h
    · split at h
      · cases h
        exact absurd rfl (hsigma _ hd).1
      · cases h
        exact absurd rfl (hsigma _ hd).2
    · cases hl : lowerChar c with
      | nil => exact absurd hl (lowerChar_ne_nil c)
      | cons e es =>
        rw [hl] at h
        cases h
        obtain ⟨hn, hc, rfl⟩ := lowerChar_eq_cons hd hl
        exact ⟨hn, hc, rfl⟩

end Text.LetterCase

namespace Naming

open Text.LetterCase

/-- Words that are raw when they are lowered and joined have a hash mark after their first letter as
well when they are capitalised. -/
theorem capitalized_of_raw {ws : List (List Char)} {more : List Char}
    (h : ['_'].intercalate (ws.map lower) = 'r' :: '#' :: more) :
    ∃ later, ws.flatMap capitalize = 'R' :: '#' :: later := by
  obtain ⟨w, rest, tail, rfl, ht, hw⟩ : ∃ w rest tail, ws = w :: rest ∧
      (tail = [] ∨ ∃ others, tail = '_' :: others) ∧
      lowerFrom [] w ++ tail = 'r' :: '#' :: more := by
    cases ws with
    | nil => cases h
    | cons w rest =>
      cases rest with
      | nil => exact ⟨w, [], [], rfl, .inl rfl, by simpa [List.intercalate, lower] using h⟩
      | cons v rest =>
        refine ⟨w, v :: rest, '_' :: ['_'].intercalate ((v :: rest).map lower), rfl,
          .inr ⟨_, rfl⟩, ?_⟩
        rw [← h]
        simp [List.intercalate, lower]
  have hr : tail.head? ≠ some 'r' := by rcases ht with rfl | ⟨_, rfl⟩ <;> simp
  have hh : tail.head? ≠ some '#' := by rcases ht with rfl | ⟨_, rfl⟩ <;> simp
  obtain ⟨c, cs, rfl, hn, hc, hcs⟩ := lowerFrom_append_eq_cons (by decide) hr hw
  obtain ⟨d, ds, rfl, hm, hd, _⟩ := lowerFrom_append_eq_cons (by decide) hh hcs
  have hupper : ∀ n < 128, (Char.ofNat n).toLower = 'r' → upperChar (Char.ofNat n) = ['R'] := by
    decide
  have hmark : ∀ n < 128, (Char.ofNat n).toLower = '#' → Char.ofNat n = '#' := by decide
  have hc' := hupper c.toNat hn
  have hd' := hmark d.toNat hm
  rw [Char.ofNat_toNat] at hc' hd'
  rw [List.flatMap_cons, capitalize, hc' hc, hd' hd]
  exact ⟨_, rfl⟩

end Naming

/-- No part of a text that is split at slashes has one. -/
theorem Route.not_mem_of_mem_splitOn {cs part : List Char} (h : part ∈ cs.splitOn '/') :
    '/' ∉ part := by
  induction cs generalizing part with
  | nil =>
    rw [List.splitOn_nil, List.mem_singleton] at h
    simp [h]
  | cons c rest ih =>
    rw [List.splitOn_cons_eq_if_modifyHead] at h
    split at h
    · rcases List.mem_cons.mp h with rfl | h
      · exact List.not_mem_nil
      · exact ih h
    · rename_i hc
      cases hs : rest.splitOn '/' with
      | nil => simp [hs] at h
      | cons first others =>
        rw [hs, List.modifyHead_cons] at h
        rcases List.mem_cons.mp h with rfl | h
        · have hf : '/' ∉ first := ih (by simp [hs])
          have hne : '/' ≠ c := fun he => hc (beq_iff_eq.mpr he.symm)
          simp [hf, hne]
        · exact ih (by simp [hs, h])

namespace Group

/-- Whether the module name of a group is a name and nothing else: no gap or comment is in its
text. -/
def hasBareModule (g : Group) : Bool := g.moduleName.toList.all isContinue

/-- The module name of a group without a complaint is not raw, since its converter would be called
by a raw name as well, and written with a capital it is none. -/
theorem moduleName_not_raw {g : Group} (h : g.complaints = []) (more : List Char) :
    g.moduleName.toList ≠ 'r' :: '#' :: more := by
  intro hr
  obtain ⟨-, -, w, hw⟩ := exists_identifiers h
  rw [moduleName, Naming.snake, String.toList_ofList] at hr
  obtain ⟨later, hl⟩ := Naming.capitalized_of_raw hr
  have hc : g.converterName.toList = 'R' :: '#' :: (later ++ "Mapper".toList) := by
    rw [converterName, Naming.converterType, Naming.pascal, String.toList_append,
      String.toList_ofList, hl]
    rfl
  have hb : Source.Lexer.beginsName g.converterName.toList = true := by
    rw [hc]
    rfl
  have hs := (Source.identifier?_of_beginsName hw hb).2
  have hgap : Source.Lexer.isGap '#' = false := by decide
  have hrest : ('R' :: '#' :: (later ++ "Mapper".toList)).dropWhile isContinue =
      '#' :: (later ++ "Mapper".toList) := rfl
  rw [hc, hrest] at hs
  simp [Source.Lexer.skipGaps, Source.Lexer.plainComment?, hgap] at hs

private theorem beginsName_of_bare {g : Group} (h : g.complaints = [])
    (hb : g.hasBareModule = true) :
    Source.Lexer.beginsName g.moduleName.toList = true := by
  obtain ⟨-, ⟨w, hw⟩, -⟩ := exists_identifiers h
  apply Source.beginsName_of_skipGaps hw
  rw [List.dropWhile_eq_nil_iff.mpr fun c hc => List.all_eq_true.mp hb c hc]
  rfl

/-- A bare module name is read as itself. -/
theorem identifier?_of_bare {g : Group} (h : g.complaints = []) (hb : g.hasBareModule = true) :
    Source.identifier? g.moduleName = some (.plain g.moduleName) := by
  obtain ⟨-, ⟨w, hw⟩, -⟩ := exists_identifiers h
  have hp := (Source.identifier?_of_beginsName hw (beginsName_of_bare h hb)).1
  rw [List.takeWhile_eq_self_iff.mpr fun c hc => List.all_eq_true.mp hb c hc,
    String.ofList_toList] at hp
  rw [hw, hp]

/-- The index has a word for a module just if its name is bare, and then it is that name. -/
theorem moduleWord?_eq {g : Group} (h : g.complaints = []) :
    Emission.moduleWord? g.moduleName =
      if g.hasBareModule then some (.plain g.moduleName) else none := by
  split
  case isTrue hb =>
    have hall : ∀ c ∈ g.moduleName.toList, isContinue c = true := List.all_eq_true.mp hb
    rw [Emission.moduleWord?, Source.Lexer.word?_of_beginsName (beginsName_of_bare h hb),
      List.takeWhile_eq_self_iff.mpr hall, List.dropWhile_eq_nil_iff.mpr hall, String.ofList_toList]
  case isFalse hb =>
    unfold Emission.moduleWord?
    split
    · rename_i w hw
      rcases Source.Lexer.beginsName_of_word? hw with hn | ⟨more, hr⟩
      · rw [Source.Lexer.word?_of_beginsName hn] at hw
        simp only [Option.some.injEq, Prod.mk.injEq] at hw
        exact absurd (List.all_eq_true.mpr (List.dropWhile_eq_nil_iff.mp hw.2)) hb
      · exact absurd hr (moduleName_not_raw h more)
    · rfl

/-- The path of the converter of a group. -/
def converterPath (g : Group) : String := "internal/mapper/" ++ g.moduleName ++ ".rs"

theorem slash_not_mem_of_bare {g : Group} (hb : g.hasBareModule = true) :
    '/' ∉ g.moduleName.toList := by
  have hslash : isContinue '/' = false := by decide
  intro h
  rw [List.all_eq_true.mp hb '/' h] at hslash
  cases hslash

/-- The file of a converter is right in the directory for converters just if no slash is in the
module name. -/
theorem stepsOf_converterPath_iff (g : Group) :
    Route.stepsOf g.converterPath = ["internal", "mapper", g.moduleName ++ ".rs"] ↔
      '/' ∉ g.moduleName.toList := by
  have hl : g.converterPath.toList =
      "internal".toList ++ '/' ::
        ("mapper".toList ++ '/' :: (g.moduleName.toList ++ ".rs".toList)) := by
    have hd : "internal/mapper/".toList =
        "internal".toList ++ '/' :: ("mapper".toList ++ ['/']) := by
      decide
    change ("internal/mapper/" ++ g.moduleName ++ ".rs").toList = _
    rw [String.toList_append, String.toList_append, hd]
    simp only [List.append_assoc, List.cons_append, List.nil_append]
  constructor
  · intro hs hm
    have hlast : g.moduleName ++ ".rs" ∈ Route.stepsOf g.converterPath := by simp [hs]
    obtain ⟨part, hpart, he⟩ := List.mem_map.mp (List.mem_filter.mp hlast).1
    have hp : part = g.moduleName.toList ++ ".rs".toList := by
      rw [← String.toList_append, ← he, String.toList_ofList]
    exact Route.not_mem_of_mem_splitOn hpart (hp ▸ List.mem_append_left _ hm)
  · intro hm
    have hname : '/' ∉ g.moduleName.toList ++ ".rs".toList := by
      rw [List.mem_append, not_or]
      exact ⟨hm, by decide⟩
    have hlast : String.ofList (g.moduleName.toList ++ ".rs".toList) = g.moduleName ++ ".rs" := by
      rw [← String.toList_append, String.ofList_toList]
    have hlong : 3 ≤ (g.moduleName ++ ".rs").length := by
      rw [String.length_append]
      exact Nat.le_add_left _ _
    have hempty : g.moduleName ++ ".rs" ≠ "" := fun he => absurd (he ▸ hlong) (by decide)
    have hdot : g.moduleName ++ ".rs" ≠ "." := fun he => absurd (he ▸ hlong) (by decide)
    rw [Route.stepsOf, hl, List.splitOn_append_cons_self_of_not_mem (by decide),
      List.splitOn_append_cons_self_of_not_mem (by decide), List.splitOn_eq_singleton hname]
    simp only [List.map_cons, List.map_nil, hlast, String.ofList_toList]
    simp [hempty, hdot]

end Group

end Switchboard
