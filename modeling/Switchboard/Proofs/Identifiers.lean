import Mathlib.Tactic.ByContra
import Switchboard.Naming
import Switchboard.Source.File

/-! Texts that are one identifier: gaps, a name and gaps again. A text written against the front of
such a name becomes part of it only if nothing stands between the two. -/

namespace Switchboard.Source

open Text

namespace Lexer

/-- The characters that separate tokens, by their code points. -/
private def gapCodes : List Nat :=
  List.range' 9 5 ++ [0x20, 0x85, 0xa0, 0x1680] ++ List.range' 0x2000 11 ++
    [0x2028, 0x2029, 0x202f, 0x205f, 0x3000, 0x200e, 0x200f]

private theorem toNat_mem_gapCodes {c : Char} (h : isGap c = true) : c.toNat ∈ gapCodes := by
  simp only [isGap, Bool.or_eq_true, beq_iff_eq] at h
  rcases h with (hb | rfl) | rfl
  · simp only [isBlank, Bool.or_eq_true, Bool.and_eq_true, decide_eq_true_eq, beq_iff_eq] at hb
    simp only [gapCodes, List.mem_append, List.mem_range'_1, List.mem_cons, List.not_mem_nil,
      or_false]
    omega
  · decide
  · decide

theorem not_isGap_of_isContinue {c : Char} (h : Identifier.isContinue c = true) :
    isGap c = false := by
  have hn : ∀ n ∈ gapCodes, Identifier.isContinue (Char.ofNat n) = false := by decide +kernel
  cases hg : isGap c with
  | false => rfl
  | true =>
    have hc := hn c.toNat (toNat_mem_gapCodes hg)
    rw [Char.ofNat_toNat, h] at hc
    cases hc

/-! What begins with a character of names -/

theorem ne_of_isContinue {c d : Char} (h : Identifier.isContinue c = true)
    (hd : Identifier.isContinue d = false) : c ≠ d := by
  rintro rfl
  rw [h] at hd
  cases hd

theorem skipGaps_of_isContinue {c : Char} (h : Identifier.isContinue c = true) (n : Nat)
    (cs : List Char) : skipGaps n (c :: cs) = c :: cs := by
  cases n with
  | zero => rfl
  | succ n =>
    have hs : c ≠ '/' := ne_of_isContinue h (by decide)
    have hp : plainComment? (c :: cs) = none := by simp [plainComment?, hs]
    simp [skipGaps, hp, not_isGap_of_isContinue h]

theorem docComment?_of_isContinue {c : Char} (h : Identifier.isContinue c = true)
    (cs : List Char) : docComment? (c :: cs) = none := by
  have hs : c ≠ '/' := ne_of_isContinue h (by decide)
  simp [docComment?, hs]

theorem opens_of_isContinue {c : Char} (h : Identifier.isContinue c = true) : opens c = none := by
  unfold opens
  split
  · exact absurd h (by decide)
  · exact absurd h (by decide)
  · exact absurd h (by decide)
  · rfl

theorem closes_of_isContinue {c : Char} (h : Identifier.isContinue c = true) :
    closes c = none := by
  unfold closes
  split
  · exact absurd h (by decide)
  · exact absurd h (by decide)
  · exact absurd h (by decide)
  · rfl

/-! Tokens once read stay -/

/-- Whether tokens begin with what was read outside of all groups that are still open, and go on
with the outermost of these. -/
private def Begins (outer : List (Delimiter × List Token)) (done ts : List Token) : Prop :=
  match outer.getLast? with
  | none => done.reverse <+: ts
  | some (d, before) => ∃ body, before.reverse ++ [.group d body] <+: ts

private theorem begins_push {outer : List (Delimiter × List Token)} {done ts : List Token}
    (more : List Token) (h : Begins outer (more ++ done) ts) : Begins outer done ts := by
  unfold Begins at h ⊢
  cases ho : outer.getLast? with
  | some e => simpa [ho] using h
  | none =>
    simp only [ho, List.reverse_append] at h
    exact (List.prefix_append _ _).trans h

private theorem begins_open {outer : List (Delimiter × List Token)} {done ts : List Token}
    {d : Delimiter} (h : Begins ((d, done) :: outer) [] ts) : Begins outer done ts := by
  unfold Begins at h ⊢
  cases ho : outer.getLast? with
  | some e => simpa [List.getLast?_cons, ho] using h
  | none =>
    simp only [List.getLast?_cons, ho] at h
    obtain ⟨body, hb⟩ := h
    exact (List.prefix_append _ _).trans hb

private theorem begins_close {outer : List (Delimiter × List Token)}
    {before body done ts : List Token}
    {d : Delimiter} (h : Begins outer (.group d body :: before) ts) :
    Begins ((d, before) :: outer) done ts := by
  unfold Begins at h ⊢
  cases ho : outer.getLast? with
  | some e => simpa [List.getLast?_cons, ho] using h
  | none =>
    simp only [ho] at h
    simp only [List.getLast?_cons, ho]
    exact ⟨body, by simpa using h⟩

private theorem begins_of_scanFrom {n : Nat} {outer : List (Delimiter × List Token)}
    {done : List Token} {cs : List Char} {ts : List Token}
    (h : scanFrom n outer done cs = some ts) : Begins outer done ts := by
  induction n generalizing outer done cs with
  | zero => cases h
  | succ n ih =>
    simp only [scanFrom] at h
    split at h
    · exact begins_push _ (ih h)
    · split at h
      · split at h
        · rename_i ho
          cases h
          simp [Begins, List.isEmpty_iff.mp ho]
        · cases h
      · split at h
        · exact begins_open (ih h)
        · split at h
          · split at h
            · rename_i he
              subst he
              exact begins_close (ih h)
            · cases h
          · cases h
        · split at h
          · exact begins_push [_] (ih h)
          · cases h

private theorem not_begins_longer {done : List Token} (more : List Token) (hne : more ≠ []) :
    ¬ Begins [] (more ++ done) done.reverse := by
  intro h
  have hl := (show (more ++ done).reverse <+: done.reverse from h).length_le
  have hp := List.length_pos_iff.mpr hne
  simp only [List.length_reverse, List.length_append] at hl
  omega

private theorem not_begins_opened {done : List Token} {d : Delimiter} :
    ¬ Begins [(d, done)] [] done.reverse := by
  rintro ⟨body, h⟩
  have hl := h.length_le
  rw [List.length_append, List.length_singleton] at hl
  omega

/-- Only gaps are left where no further token is read. -/
private theorem skipGaps_of_scanFrom {n : Nat} {done : List Token} {cs : List Char}
    (h : scanFrom n [] done cs = some done.reverse) : skipGaps cs.length cs = [] := by
  cases n with
  | zero => cases h
  | succ n =>
    simp only [scanFrom] at h
    split at h
    · rename_i inner text rest _
      refine absurd (begins_of_scanFrom h) (not_begins_longer _ ?_)
      simp [docTokens]
    · split at h
      · assumption
      · split at h
        · exact absurd (begins_of_scanFrom h) not_begins_opened
        · cases h
        · split at h
          · exact absurd (begins_of_scanFrom h) (not_begins_longer [_] (by simp))
          · cases h

private theorem scanFrom_of_skipGaps {n : Nat} (done : List Token) {cs : List Char}
    (h : skipGaps cs.length cs = []) : scanFrom (n + 1) [] done cs = some done.reverse := by
  simp [scanFrom, h, docComment?]

theorem markToken?_mark {cs rest : List Char} {t : Token} (h : markToken? cs = some (t, rest)) :
    ∃ c s, t = .mark c s := by
  unfold markToken? at h
  split at h
  · cases h
  · split at h
    · cases h
    · split at h
      · cases h
      · split at h
        · cases h
          exact ⟨_, _, rfl⟩
        · cases h
      · cases h
        exact ⟨_, _, rfl⟩
  · cases h
    exact ⟨_, _, rfl⟩

theorem word?_of_leaf? {cs rest : List Char} {w : Word} (h : leaf? cs = some (.word w, rest)) :
    word? cs = some (w, rest) := by
  unfold leaf? at h
  split at h
  · cases h
  · cases hm : markToken? cs with
    | some found =>
      rw [hm] at h
      cases h
      obtain ⟨c, s, ht⟩ := markToken?_mark hm
      cases ht
    | none =>
      rw [hm] at h
      by_cases hb : beginsLiteral cs
      · simp [hb] at h
      · cases hw : word? cs with
        | none => simp [hb, hw] at h
        | some found =>
          simp only [hb, hw, Option.map_some, Option.orElse_eq_orElse, Option.orElse_none,
            Bool.false_eq_true, if_false, Option.some.injEq, Prod.mk.injEq, Token.word.injEq] at h
          rw [← h.1, ← h.2]

/-- A text that is one name: gaps, the name and gaps again. -/
theorem word?_of_scanChars {cs : List Char} {w : Word} (h : scanChars cs = some [.word w]) :
    ∃ rest, leaf? (skipGaps cs.length cs) = some (.word w, rest) ∧
      skipGaps rest.length rest = [] := by
  simp only [scanChars, scanFrom] at h
  split at h
  · rename_i inner text rest _
    have hb : Begins [] ((docTokens inner text).reverse ++ []) [.word w] := begins_of_scanFrom h
    simp [Begins, docTokens] at hb
  · split at h
    · cases h
    · split at h
      · obtain ⟨body, hp⟩ := begins_of_scanFrom h
        simp at hp
      · cases h
      · split at h
        · rename_i t rest hl
          have hp := show [t] <+: [Token.word w] from begins_of_scanFrom h
          have ht : t = .word w := by simpa using hp
          subst ht
          exact ⟨rest, hl, skipGaps_of_scanFrom h⟩
        · cases h

private theorem scanChars_eq_word_iff {c : Char} {cs rest : List Char} {v w : Word}
    (hc : Identifier.isContinue c = true) (hl : leaf? (c :: cs) = some (.word v, rest)) :
    scanChars (c :: cs) = some [.word w] ↔ v = w ∧ skipGaps rest.length rest = [] := by
  constructor
  · intro h
    obtain ⟨rest', hl', hs⟩ := word?_of_scanChars h
    rw [skipGaps_of_isContinue hc, hl] at hl'
    cases hl'
    exact ⟨rfl, hs⟩
  · rintro ⟨rfl, hs⟩
    simp only [scanChars, scanFrom, skipGaps_of_isContinue hc, docComment?_of_isContinue hc,
      opens_of_isContinue hc, closes_of_isContinue hc, hl]
    exact scanFrom_of_skipGaps [.word v] hs

/-! A text in front of a name -/

private theorem literal?_m (cs : List Char) : literal? ('m' :: cs) = none := rfl

private theorem markToken?_m (cs : List Char) : markToken? ('m' :: cs) = none := rfl

private theorem word?_m (cs : List Char) :
    word? ('m' :: cs) = some (.plain (String.ofList ('m' :: cs.takeWhile Identifier.isContinue)),
      cs.dropWhile Identifier.isContinue) := rfl

private theorem leaf?_m (cs : List Char) :
    leaf? ('m' :: cs) = some
      (.word (.plain (String.ofList ('m' :: cs.takeWhile Identifier.isContinue))),
        cs.dropWhile Identifier.isContinue) := by
  simp [leaf?, literal?_m, markToken?_m, beginsLiteral, word?_m]

/-- The name that begins with what is in front of a text takes in as much of it as a name may. -/
theorem leaf?_mapper (cs : List Char) :
    leaf? ("mapper_".toList ++ cs) = some
      (.word (.plain (String.ofList ("mapper_".toList ++ cs.takeWhile Identifier.isContinue))),
        cs.dropWhile Identifier.isContinue) := by
  have hall : "apper_".toList.all Identifier.isContinue = true := by decide
  have hf := List.all_eq_true.mp hall
  have hl := leaf?_m ("apper_".toList ++ cs)
  rw [List.takeWhile_append_of_pos hf, List.dropWhile_append_of_pos hf] at hl
  exact hl

/-- The beginning of a text that is a name as it stands: it is not made raw, and nothing stands
before it. -/
def beginsName : List Char → Bool
  | 'r' :: '#' :: _ => false
  | c :: _ => Identifier.isStart c
  | [] => false

theorem word?_of_beginsName {cs : List Char} (h : beginsName cs = true) :
    word? cs = some (.plain (String.ofList (cs.takeWhile Identifier.isContinue)),
      cs.dropWhile Identifier.isContinue) := by
  unfold beginsName at h
  split at h
  · cases h
  · rename_i c rest hr
    have hc := Identifier.isContinue_of_isStart h
    unfold word?
    split
    · rename_i he
      cases he
      exact absurd rfl (hr _ rfl)
    · simp [name?, h, hc]
  · cases h

theorem beginsName_of_word? {cs rest : List Char} {w : Word} (h : word? cs = some (w, rest)) :
    beginsName cs = true ∨ ∃ more, cs = 'r' :: '#' :: more := by
  unfold word? at h
  split at h
  · exact .inr ⟨_, rfl⟩
  · rename_i hr
    left
    cases cs with
    | nil => cases h
    | cons c cs =>
      unfold beginsName
      split
      · rename_i he
        cases he
        exact absurd rfl (hr _)
      · rename_i he
        cases he
        by_contra hc
        simp [name?, hc] at h
      · rename_i he
        cases he

end Lexer

private theorem wordOf?_eq_some_iff {text : String} {w : Word} :
    wordOf? text = some w ↔ scan text = some [.word w] := by
  unfold wordOf?
  split
  · rename_i hs
    simp [hs]
  · rename_i hs
    constructor
    · intro h
      cases h
    · intro h
      exact absurd h (hs w)

theorem identifier?_eq_some_iff {text : String} {w : Word} :
    identifier? text = some w ↔ scan text = some [.word w] ∧ w.isKeyword = false := by
  rw [identifier?, Option.filter_eq_some_iff, wordOf?_eq_some_iff]
  simp

namespace Lexer

theorem dropOrderMark_of_isContinue {c : Char} (h : Identifier.isContinue c = true)
    (cs : List Char) : dropOrderMark (c :: cs) = c :: cs := by
  unfold dropOrderMark
  split
  · rename_i he
    cases he
    exact absurd h (by decide +kernel)
  · rfl

private theorem exists_cons_of_beginsName {cs : List Char} (h : beginsName cs = true) :
    ∃ c rest, cs = c :: rest ∧ Identifier.isContinue c = true := by
  unfold beginsName at h
  split at h
  · cases h
  · exact ⟨_, _, rfl, Identifier.isContinue_of_isStart h⟩
  · cases h

end Lexer

open Lexer

/-- An identifier at the very front of a text, not made raw, is the longest name there. -/
theorem identifier?_of_beginsName {text : String} {w : Word} (h : identifier? text = some w)
    (hb : beginsName text.toList = true) :
    w = .plain (String.ofList (text.toList.takeWhile Identifier.isContinue)) ∧
      skipGaps (text.toList.dropWhile Identifier.isContinue).length
        (text.toList.dropWhile Identifier.isContinue) = [] := by
  have hs := (identifier?_eq_some_iff.mp h).1
  obtain ⟨c, cs, he, hc⟩ := exists_cons_of_beginsName hb
  rw [scan, he, dropOrderMark_of_isContinue hc] at hs
  obtain ⟨rest, hl, hr⟩ := word?_of_scanChars hs
  rw [skipGaps_of_isContinue hc] at hl
  have hw := word?_of_leaf? hl
  rw [← he, word?_of_beginsName hb] at hw
  cases hw
  exact ⟨rfl, hr⟩

/-- Nothing but gaps follows the longest continuation of a name at the front of an identifier only
if the identifier begins there. -/
theorem beginsName_of_skipGaps {text : String} {w : Word} (h : identifier? text = some w)
    (hs : skipGaps (text.toList.dropWhile Identifier.isContinue).length
      (text.toList.dropWhile Identifier.isContinue) = []) : beginsName text.toList = true := by
  have ht := (identifier?_eq_some_iff.mp h).1
  rw [scan] at ht
  cases hl : text.toList with
  | nil => simp [hl, dropOrderMark, scanChars, scanFrom, skipGaps, docComment?] at ht
  | cons c cs =>
    rw [hl] at ht hs
    by_cases hc : Identifier.isContinue c = true
    · rw [dropOrderMark_of_isContinue hc] at ht
      obtain ⟨rest, hf, _⟩ := word?_of_scanChars ht
      rw [skipGaps_of_isContinue hc] at hf
      rcases beginsName_of_word? (word?_of_leaf? hf) with hb | ⟨more, he⟩
      · exact hb
      · -- the hash mark of a raw name stands in the way
        cases he
        have hr : Identifier.isContinue 'r' = true := by decide
        have hh : Identifier.isContinue '#' = false := by decide
        have hg : isGap '#' = false := by decide
        simp [hr, hh, skipGaps, plainComment?, hg] at hs
    · rw [List.dropWhile_cons_of_neg hc] at hs
      by_cases hm : c = '\ufeff'
      · subst hm
        have hg : isGap '\ufeff' = false := by decide
        simp [skipGaps, plainComment?, hg] at hs
      · have hd : dropOrderMark (c :: cs) = c :: cs := by simp [dropOrderMark, hm]
        rw [hd] at ht
        obtain ⟨rest, hf, _⟩ := word?_of_scanChars ht
        rw [hs] at hf
        have hw := word?_of_leaf? hf
        cases hw

private theorem not_isKeyword_mapper (name : String) :
    (Word.plain ("mapper_" ++ name)).isKeyword = false := by
  have hk : ∀ k ∈ Word.keywords, ¬ "mapper_".toList <+: k.toList := by decide
  have hn : "mapper_" ++ name ∉ Word.keywords := by
    intro hm
    refine hk _ hm ?_
    rw [String.toList_append]
    exact List.prefix_append _ _
  simp [Word.isKeyword, Word.plain, hn]

/-- The name of the method for an accessor is an identifier just if the accessor begins with its
name. Then the method has the name of the accessor after a front of its own. -/
theorem identifier?_accessorMethod {text : String} {w : Word} (h : identifier? text = some w) :
    identifier? (Naming.accessorMethod text) =
      if beginsName text.toList then some (.plain (Naming.accessorMethod w.text)) else none := by
  have hm : Identifier.isContinue 'm' = true := by decide
  have hscan (v : Word) : scan (Naming.accessorMethod text) = some [.word v] ↔
      Word.plain ("mapper_" ++ String.ofList (text.toList.takeWhile Identifier.isContinue)) = v ∧
        skipGaps (text.toList.dropWhile Identifier.isContinue).length
          (text.toList.dropWhile Identifier.isContinue) = [] := by
    have hl := leaf?_mapper text.toList
    have hc : (Naming.accessorMethod text).toList = 'm' :: ("apper_".toList ++ text.toList) := by
      rw [Naming.accessorMethod, String.toList_append]
      rfl
    rw [scan, hc, dropOrderMark_of_isContinue hm]
    refine (scanChars_eq_word_iff hm hl).trans ?_
    rw [String.ofList_append, String.ofList_toList]
  by_cases hb : beginsName text.toList = true
  · obtain ⟨rfl, hs⟩ := identifier?_of_beginsName h hb
    rw [if_pos hb, identifier?_eq_some_iff, hscan]
    exact ⟨⟨rfl, hs⟩, not_isKeyword_mapper _⟩
  · rw [if_neg hb, Option.eq_none_iff_forall_not_mem]
    intro v hv
    have hs := ((hscan v).mp (identifier?_eq_some_iff.mp hv).1).2
    exact hb (beginsName_of_skipGaps h hs)

end Switchboard.Source
