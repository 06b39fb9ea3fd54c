import Switchboard.Emission.FileSet
import Switchboard.Proofs.Legible

/-! Printed text. Tokens that are legible are read from their printed form as they were, whatever
groups are open around them, and so a generated text is read as the tokens that it was made from. -/

namespace Switchboard.Source

open Text

namespace Lexer

/-! Reading on from a place in a text -/

section

variable {n : Nat} {outer : List (Delimiter × List Token)} {done : List Token} {c : Char}
  {cs rest : List Char} {t : Token}

/-- A character that begins a token, as far as gaps, comments and groups go. -/
structure Leads (c : Char) : Prop where
  gap : isGap c = false
  slash : c ≠ '/'
  opens : opens c = none
  closes : closes c = none

private theorem leads_of_isContinue (h : Identifier.isContinue c = true) : Leads c :=
  ⟨not_isGap_of_isContinue h, ne_of_isContinue h (by decide), opens_of_isContinue h,
    closes_of_isContinue h⟩

private theorem leads_of_mem (h : c ∈ '"' :: '\'' :: pureMarks) : Leads c := by
  have hall : ∀ d ∈ '"' :: '\'' :: pureMarks,
      isGap d = false ∧ d ≠ '/' ∧ opens d = none ∧ closes d = none :=
    List.all_iff_forall_prop.mp (by decide)
  obtain ⟨hg, hs, ho, hc⟩ := hall c h
  exact ⟨hg, hs, ho, hc⟩

private theorem skipGaps_of_not_isGap (hg : isGap c = false) (hs : c ≠ '/') (n : Nat)
    (cs : List Char) :
    skipGaps n (c :: cs) = c :: cs := by
  cases n with
  | zero => rfl
  | succ n => simp [skipGaps, plainComment?, hs, hg]

private theorem docComment?_of_ne (hs : c ≠ '/') (cs : List Char) :
    docComment? (c :: cs) = none := by
  simp [docComment?, hs]

private theorem scanFrom_gap (hg : isGap c = true) (hs : c ≠ '/') :
    scanFrom n outer done (c :: cs) = scanFrom n outer done cs := by
  cases n with
  | zero => rfl
  | succ n => simp [scanFrom, skipGaps, plainComment?, hs, hg]

private theorem scanFrom_leaf (hc : Leads c) (hl : leaf? (c :: cs) = some (t, rest)) :
    scanFrom (n + 1) outer done (c :: cs) = scanFrom n outer (t :: done) rest := by
  simp [scanFrom, skipGaps_of_not_isGap hc.gap hc.slash, docComment?_of_ne hc.slash, hc.opens,
    hc.closes, hl]

private theorem scanFrom_opener (d : Delimiter) :
    scanFrom (n + 1) outer done (d.opener :: cs) = scanFrom n ((d, done) :: outer) [] cs := by
  have hc : isGap d.opener = false ∧ d.opener ≠ '/' ∧ opens d.opener = some d := by
    cases d <;> decide
  simp [scanFrom, skipGaps_of_not_isGap hc.1 hc.2.1, docComment?_of_ne hc.2.1, hc.2.2]

private theorem scanFrom_closer (d : Delimiter) (before : List Token) :
    scanFrom (n + 1) ((d, before) :: outer) done (d.closer :: cs) =
      scanFrom n outer (.group d done.reverse :: before) cs := by
  have hc : isGap d.closer = false ∧ d.closer ≠ '/' ∧ opens d.closer = none ∧
      closes d.closer = some d := by cases d <;> decide
  simp [scanFrom, skipGaps_of_not_isGap hc.1 hc.2.1, docComment?_of_ne hc.2.1, hc.2.2.1, hc.2.2.2]

end

/-- What stands after a token that is not joint, up to the end of its sequence. -/
def onward (ts : List Token) (rest : List Char) : List Char :=
  if ts.isEmpty then rest else ' ' :: ((Token.printAll ts).toList ++ rest)

section

variable (ts : List Token) {rest : List Char}

private theorem printAll_cons {t : Token} (h : t.isJoint = false) (rest : List Char) :
    (Token.printAll (t :: ts)).toList ++ rest = t.print.toList ++ onward ts rest := by
  cases ts <;> simp [Token.printAll, onward, h]

private theorem isBreak_onward (hr : isBreak rest = true) : isBreak (onward ts rest) = true := by
  cases ts with
  | nil => exact hr
  | cons => rfl

private theorem scanFrom_onward (n : Nat) (outer : List (Delimiter × List Token))
    (done : List Token) :
    scanFrom n outer done (onward ts rest) =
      scanFrom n outer done ((Token.printAll ts).toList ++ rest) := by
  cases ts with
  | nil => simp [onward, Token.printAll]
  | cons => exact scanFrom_gap (by decide) (by decide)

end

private theorem length_printAll_cons {t : Token} (h : t.isJoint = false) (ts : List Token) :
    t.print.length + (Token.printAll ts).length ≤ (Token.printAll (t :: ts)).length := by
  cases ts <;> simp [Token.printAll, h]

private theorem begins_written {w : Word} (hw : w.isLegible = true) :
    ∃ c cs, w.written.toList = c :: cs ∧ Leads c := by
  obtain ⟨c, cs, hwritten, hc, -⟩ := exists_written hw
  exact ⟨c, cs, hwritten, leads_of_isContinue hc⟩

/-- That the printed form of tokens is read as these whatever groups are open, in a number of steps
that its length bounds, and that what follows is left. -/
def Scans (ts : List Token) : Prop :=
  ∀ rest, isBreak rest = true → ∃ k ≤ (Token.printAll ts).length, ∀ n outer done,
    scanFrom (n + k) outer done ((Token.printAll ts).toList ++ rest) =
      scanFrom n outer (ts.reverse ++ done) rest

namespace Scans

variable {ts : List Token}

private theorem nil :
    Scans [] := fun _ _ => ⟨0, Nat.zero_le _, fun _ _ _ => by simp [Token.printAll]⟩

private theorem leaf {t : Token} (h : Scans ts) (ht : t.isJoint = false)
    (hb : ∃ c cs, t.print.toList = c :: cs ∧ Leads c)
    (hl : ∀ rest, isBreak rest = true → leaf? (t.print.toList ++ rest) = some (t, rest)) :
    Scans (t :: ts) := by
  intro rest hr
  obtain ⟨k, hk, hs⟩ := h rest hr
  obtain ⟨c, cs, he, hc⟩ := hb
  have hlength := length_printAll_cons ht ts
  have hpos : 0 < t.print.length := by
    rw [← String.length_toList, he]
    exact Nat.succ_pos _
  refine ⟨k + 1, by omega, fun n outer done => ?_⟩
  have hleaf := hl _ (isBreak_onward ts hr)
  rw [he, List.cons_append] at hleaf
  rw [printAll_cons ts ht rest, he, List.cons_append, ← Nat.add_assoc, scanFrom_leaf hc hleaf,
    scanFrom_onward, hs]
  simp

/-- The brackets of a group with the blanks inside of them. -/
private theorem exists_brackets (d : Delimiter) (empty : Bool) :
    ∃ front back : List Char, (∀ c ∈ front ++ back, c = ' ') ∧
      (Token.opening d).toList = d.opener :: front ∧
      (Token.closing d empty).toList = back ++ [d.closer] := by
  cases d with
  | paren => exact ⟨[], [], by simp, rfl, by cases empty <;> rfl⟩
  | bracket => exact ⟨[], [], by simp, rfl, by cases empty <;> rfl⟩
  | brace =>
    cases empty with
    | true => exact ⟨[' '], [], by simp, rfl, rfl⟩
    | false => exact ⟨[' '], [' '], by simp, rfl, rfl⟩

private theorem scanFrom_blanks {blanks : List Char} (h : ∀ c ∈ blanks, c = ' ') (n : Nat)
    (outer : List (Delimiter × List Token)) (done : List Token) (cs : List Char) :
    scanFrom n outer done (blanks ++ cs) = scanFrom n outer done cs := by
  induction blanks with
  | nil => rfl
  | cons c blanks ih =>
    obtain ⟨rfl, hb⟩ := List.forall_mem_cons.mp h
    rw [List.cons_append, scanFrom_gap (by decide) (by decide), ih hb]

private theorem group {d : Delimiter} {body : List Token} (hb : Scans body) (h : Scans ts) :
    Scans (.group d body :: ts) := by
  intro rest hr
  obtain ⟨k, hk, hs⟩ := h rest hr
  obtain ⟨front, back, hblank, hopen, hclose⟩ := exists_brackets d body.isEmpty
  have hfront : ∀ c ∈ front, c = ' ' := fun c hc => hblank c (List.mem_append_left _ hc)
  have hback : ∀ c ∈ back, c = ' ' := fun c hc => hblank c (List.mem_append_right _ hc)
  have hbreak : isBreak (back ++ d.closer :: onward ts rest) = true := by
    cases back with
    | nil => cases d <;> rfl
    | cons c back => simp [isBreak, breaks, hback c]
  obtain ⟨kb, hkb, hsb⟩ := hb _ hbreak
  have hprint : (Token.print (.group d body)).toList ++ onward ts rest = d.opener ::
      (front ++ ((Token.printAll body).toList ++ (back ++ d.closer :: onward ts rest))) := by
    simp [Token.print, hopen, hclose]
  have hlength := length_printAll_cons (t := .group d body) rfl ts
  have hwidth : (Token.printAll body).length + 2 ≤ (Token.print (.group d body)).length := by
    simp only [← String.length_toList, Token.print, String.toList_append, hopen, hclose,
      List.length_append, List.length_cons, List.length_nil]
    omega
  refine ⟨k + kb + 2, by omega, fun n outer done => ?_⟩
  rw [printAll_cons ts rfl rest, hprint]
  calc
    _ = scanFrom (n + k + 1 + kb) ((d, done) :: outer) []
          (front ++ ((Token.printAll body).toList ++ (back ++ d.closer :: onward ts rest))) := by
      rw [← scanFrom_opener]
      congr 1
      omega
    _ = scanFrom (n + k + 1) ((d, done) :: outer) body.reverse (d.closer :: onward ts rest) := by
      rw [scanFrom_blanks hfront, hsb, scanFrom_blanks hback, List.append_nil]
    _ = scanFrom (n + k) outer (.group d body :: done) (onward ts rest) := by
      rw [scanFrom_closer, List.reverse_reverse]
    _ = _ := by
      rw [scanFrom_onward, hs]
      simp

private theorem joint {c d : Char} {s : Spacing} (h : Scans (.mark d s :: ts)) (hc : c ∈ pureMarks)
    (hd : d ∈ pureMarks) : Scans (.mark c .joint :: .mark d s :: ts) := by
  intro rest hr
  obtain ⟨k, hk, hs⟩ := h rest hr
  obtain ⟨more, hmore⟩ : ∃ more, (Token.printAll (.mark d s :: ts)).toList ++ rest = d :: more := by
    cases ts <;> simp [Token.printAll, Token.print]
  have hprint : (Token.printAll (.mark c .joint :: .mark d s :: ts)).toList =
      c :: (Token.printAll (.mark d s :: ts)).toList := by
    simp [Token.printAll, Token.print, Token.isJoint]
  have hl := leaf?_mark hc (d :: more)
  rw [mark?_of_pure hd] at hl
  refine ⟨k + 1, ?_, fun n outer done => ?_⟩
  · rw [← String.length_toList, hprint, List.length_cons, String.length_toList]
    omega
  · rw [hprint, List.cons_append, hmore, ← Nat.add_assoc,
      scanFrom_leaf (leads_of_mem (by simp [hc])) hl, ← hmore, hs]
    simp

private theorem lifetime {w : Word} (h : Scans ts) (hw : w.isLegible = true)
    (hraw : w.raw = false) :
    Scans (.mark '\'' .joint :: .word w :: ts) := by
  intro rest hr
  have hscans : Scans (.word w :: ts) := h.leaf rfl (begins_written hw) fun _ => leaf?_word hw
  obtain ⟨k, hk, hs⟩ := hscans rest hr
  have hprint : (Token.printAll (.mark '\'' .joint :: .word w :: ts)).toList =
      '\'' :: (Token.printAll (.word w :: ts)).toList := by
    simp [Token.printAll, Token.print, Token.isJoint]
  have hl := leaf?_lifetime hw hraw (isBreak_onward ts hr)
  refine ⟨k + 1, ?_, fun n outer done => ?_⟩
  · rw [← String.length_toList, hprint, List.length_cons, String.length_toList]
    omega
  · have hword := printAll_cons (t := .word w) ts rfl rest
    rw [Token.print] at hword
    rw [← hword] at hl
    rw [hprint, List.cons_append, ← Nat.add_assoc, scanFrom_leaf (leads_of_mem (by simp)) hl, hs]
    simp

end Scans

/-- What is legible is read as itself. -/
theorem scans_of_legible {ts : List Token} (h : Legible ts) : Scans ts := by
  induction h with
  | nil => exact .nil
  | word hw _ ih => exact ih.leaf rfl (begins_written hw) fun _ => leaf?_word hw
  | @literal text ts hl _ ih =>
    obtain ⟨c, cs, he, hc⟩ := hl.begins
    refine ih.leaf rfl ⟨c, cs, he, ?_⟩ fun rest hr => ?_
    · rcases hc with rfl | hc
      · exact leads_of_mem (by simp)
      · exact leads_of_isContinue hc
    · simp [Token.print, leaf?, hl.read rest hr]
  | group _ _ hb ih => exact hb.group ih
  | @alone c ts hc _ ih =>
    have hp : (Token.mark c .alone).print.toList = [c] := by simp [Token.print]
    refine ih.leaf rfl ⟨c, [], hp, leads_of_mem (by simp [hc])⟩ fun rest hr => ?_
    rw [hp, List.singleton_append, leaf?_mark hc, mark?_of_isBreak hr]
    rfl
  | joint hc hd _ ih => exact ih.joint hc hd
  | lifetime hw hraw _ ih => exact ih.lifetime hw hraw

/-- The printed form of what is legible begins with no gap and no comment. -/
theorem exists_head_print {t : Token} {ts : List Token} (h : Legible (t :: ts)) :
    ∃ c cs, t.print.toList = c :: cs ∧ isGap c = false ∧ c ≠ '/' := by
  have hof {c : Char} {cs : List Char} (he : t.print.toList = c :: cs) (hc : Leads c) :
      ∃ c cs, t.print.toList = c :: cs ∧ isGap c = false ∧ c ≠ '/' := ⟨c, cs, he, hc.gap, hc.slash⟩
  have hmark (c : Char) (s : Spacing) : (Token.mark c s).print.toList = [c] := by simp [Token.print]
  cases h with
  | word hw _ =>
    obtain ⟨c, cs, he, hc⟩ := begins_written hw
    exact hof he hc
  | literal hl _ =>
    obtain ⟨c, cs, he, rfl | hc⟩ := hl.begins
    · exact hof he (leads_of_mem (by simp))
    · exact hof he (leads_of_isContinue hc)
  | @group d body _ _ _ =>
    obtain ⟨front, back, -, hopen, hclose⟩ := Scans.exists_brackets d body.isEmpty
    refine ⟨d.opener, front ++ ((Token.printAll body).toList ++ (back ++ [d.closer])), ?_, ?_⟩
    · simp [Token.print, hopen, hclose]
    · cases d <;> decide
  | alone hc _ => exact hof (hmark _ _) (leads_of_mem (by simp [hc]))
  | joint hc _ _ => exact hof (hmark _ _) (leads_of_mem (by simp [hc]))
  | lifetime _ _ _ => exact hof (hmark _ _) (leads_of_mem (by simp))

end Lexer

open Lexer
open Emission (contents header)

private theorem skipGaps_header {c : Char} (hg : isGap c = false) (hs : c ≠ '/') (cs : List Char) :
    skipGaps (header.toList ++ c :: cs).length (header.toList ++ c :: cs) = c :: cs := by
  have hline : ∃ text, header.toList = '/' :: '/' :: ' ' :: text ∧
      line (' ' :: (text ++ c :: cs)) = (' ' :: text.dropLast, '\n' :: c :: cs) :=
    ⟨"@generated by typemux. Do not edit.\n".toList, by decide, rfl⟩
  obtain ⟨text, hh, hl⟩ := hline
  have hp : plainComment? (header.toList ++ c :: cs) = some ('\n' :: c :: cs) := by
    rw [hh]
    simp [plainComment?, hl]
  have hn : (header.toList ++ c :: cs).length = (text ++ c :: cs).length + 2 + 1 := by
    rw [hh]
    simp
  have hgap : isGap '\n' = true := by decide
  have hnone (more : List Char) : plainComment? ('\n' :: more) = none := rfl
  calc
    _ = skipGaps ((text ++ c :: cs).length + 2) ('\n' :: c :: cs) := by
      rw [hn]
      simp only [skipGaps, hp]
    _ = skipGaps ((text ++ c :: cs).length + 1) (c :: cs) := by simp [skipGaps, hnone, hgap]
    _ = _ := skipGaps_of_not_isGap hg hs _ _

private theorem exists_printAll_cons (t : Token) (ts : List Token) :
    ∃ more, (Token.printAll (t :: ts)).toList = t.print.toList ++ more := by
  cases ts with
  | nil => exact ⟨[], by simp [Token.printAll]⟩
  | cons u us =>
    rw [Token.printAll, String.toList_append, String.toList_append, List.append_assoc]
    exact ⟨_, rfl⟩

/-- A generated text is read as the tokens that it was printed from. -/
theorem scanChars_contents {ts : List Token} (h : Legible ts) (hne : ts ≠ []) :
    scanChars (contents ts).toList = some ts := by
  obtain ⟨k, hk, hs⟩ := scans_of_legible h ['\n'] rfl
  obtain ⟨t, us, rfl⟩ := List.exists_cons_of_ne_nil hne
  obtain ⟨more, hmore⟩ := exists_printAll_cons t us
  obtain ⟨c, cs, he, hg, hslash⟩ := exists_head_print h
  have hbody : (Token.printAll (t :: us)).toList ++ ['\n'] = c :: (cs ++ more ++ ['\n']) := by
    simp [hmore, he]
  have hc : (contents (t :: us)).toList = header.toList ++ c :: (cs ++ more ++ ['\n']) := by
    rw [← hbody]
    simp [contents]
  have hskip (n : Nat) : scanFrom n [] [] (contents (t :: us)).toList =
      scanFrom n [] [] (c :: (cs ++ more ++ ['\n'])) := by
    cases n with
    | zero => rfl
    | succ n =>
      rw [scanFrom, scanFrom, hc, skipGaps_header hg hslash, skipGaps_of_not_isGap hg hslash]
  obtain ⟨n, hn⟩ : ∃ n, (contents (t :: us)).toList.length + 1 = n + 1 + k := by
    refine ⟨(contents (t :: us)).toList.length - k, ?_⟩
    have hl : (Token.printAll (t :: us)).length ≤ (contents (t :: us)).toList.length := by
      simp only [contents, String.toList_append, List.length_append, String.length_toList]
      omega
    omega
  rw [scanChars, hskip, hn, ← hbody, hs]
  have hgap : isGap '\n' = true := by decide
  rw [scanFrom_gap hgap (by decide)]
  simp [scanFrom, skipGaps, docComment?]

end Switchboard.Source
