import Switchboard.Proofs.JoinedPaths

/-! Places in a text that the scanner comes to. Before each mark of a text that stands in no group
there is such a place, where the tokens before it have been read and the mark is still ahead. -/

namespace Switchboard.Source.Lexer

open Text

variable {cs rest text : List Char}

/-! What is left is an end of the text -/

private theorem line_suffix (cs : List Char) : (line cs).2 <:+ cs := by
  fun_induction line cs <;> grind [List.suffix_cons_iff]

private theorem suffix_of_block {depth : Nat} {here : List Char}
    (h : block depth cs = some (here, rest)) : rest <:+ cs := by
  fun_induction block depth cs generalizing here <;>
    grind [Option.map_eq_some_iff, List.suffix_cons_iff]

private theorem suffix_of_plainComment? (h : plainComment? cs = some rest) : rest <:+ cs := by
  have hblock {ds : List Char} (h : (block 1 ds).map Prod.snd = some rest) : rest <:+ ds := by
    obtain ⟨⟨here, later⟩, hb, rfl⟩ := Option.map_eq_some_iff.mp h
    exact suffix_of_block hb
  revert h
  fun_cases plainComment? cs <;> grind [List.suffix_cons_iff, line_suffix]

private theorem skipGaps_suffix (n : Nat) (cs : List Char) : skipGaps n cs <:+ cs := by
  fun_induction skipGaps n cs <;>
    grind [List.suffix_cons_iff, List.IsSuffix.trans, suffix_of_plainComment?]

theorem dropOrderMark_suffix (cs : List Char) : dropOrderMark cs <:+ cs := by
  fun_cases dropOrderMark cs
  · exact List.suffix_cons _ _
  · exact List.suffix_refl _

private theorem suffix_of_docComment? {inner : Bool} {here : List Char}
    (h : docComment? cs = some (inner, here, rest)) : rest <:+ cs := by
  have hblock {inner b : Bool} {here ds : List Char}
      (h : (block 1 ds).map (fun r => (b, r.1, r.2)) = some (inner, here, rest)) : rest <:+ ds := by
    obtain ⟨⟨_, later⟩, hb, he⟩ := Option.map_eq_some_iff.mp h
    cases he
    exact suffix_of_block hb
  unfold docComment? at h
  dsimp only at h
  split at h
  · rename_i hfound
    split at h
    · cases h
      split at hfound
      · cases hfound
        exact (line_suffix _).trans (List.suffix_append ['/', '/', '!'] _)
      · exact (hblock hfound).trans (List.suffix_append ['/', '*', '!'] _)
      · cases hfound
      · cases hfound
        exact (line_suffix _).trans (List.suffix_append ['/', '/', '/'] _)
      · cases hfound
      · exact (hblock hfound).trans (List.suffix_append ['/', '*', '*'] _)
      · cases hfound
    · cases h
  · cases h

private theorem suffix_of_leaf? {t : Token} (h : leaf? cs = some (t, rest)) : rest <:+ cs :=
  ⟨t.solid, append_of_leaf? h⟩

/-! Steps -/

variable {outer o : List (Delimiter × List Token)} {done d : List Token}

/-- The tokens that have been read and stand in no group that is still open. -/
def settled (outer : List (Delimiter × List Token)) (done : List Token) : List Token :=
  ((outer.getLast?.map Prod.snd).getD done).reverse

theorem settled_nil (done : List Token) : settled [] done = done.reverse := rfl

private theorem settled_cons (e : Delimiter × List Token) (outer : List (Delimiter × List Token))
    (done : List Token) : settled (e :: outer) done = settled outer e.2 := by
  rw [settled, settled, List.getLast?_cons]
  cases outer.getLast? <;> rfl

/-- One step. What is left is an end of what was. Outside of open groups it adds nothing, or what a
documentation comment stands for, or a group, or else it has read a token where no group is open. -/
theorem advance_cases (h : advance outer done cs = some (o, d, rest)) : rest <:+ cs ∧
    ∃ new, settled o d = settled outer done ++ new ∧
      (new = [] ∨ (∃ inner here, new = docTokens inner here) ∨ (∃ e body, new = [.group e body]) ∨
        ∃ t, new = [t] ∧ outer = [] ∧ o = [] ∧ d = t :: done ∧ leaf? cs = some (t, rest)) := by
  unfold advance at h
  split at h
  · rename_i inner here later hdoc
    cases h
    refine ⟨suffix_of_docComment? hdoc, ?_⟩
    cases outer with
    | nil => exact ⟨_, by simp [settled_nil], .inr (.inl ⟨inner, here, rfl⟩)⟩
    | cons e outer => exact ⟨[], by simp [settled_cons], .inl rfl⟩
  · split at h
    · cases h
    · split at h
      · cases h
        exact ⟨List.suffix_cons _ _, [], by simp [settled_cons], .inl rfl⟩
      · split at h
        · split at h
          · rename_i e before _ _
            cases h
            refine ⟨List.suffix_cons _ _, ?_⟩
            cases o with
            | nil =>
              have hs (t : Token) :
                  settled [] (t :: before) = settled [(e, before)] done ++ [t] := by
                simp [settled_cons, settled_nil]
              exact ⟨_, hs _, .inr (.inr (.inl ⟨_, _, rfl⟩))⟩
            | cons => exact ⟨[], by simp [settled_cons], .inl rfl⟩
          · cases h
        · cases h
      · obtain ⟨⟨t, later⟩, hl, he⟩ := Option.map_eq_some_iff.mp h
        cases he
        refine ⟨suffix_of_leaf? hl, ?_⟩
        cases outer with
        | nil =>
          exact ⟨[t], by simp [settled_nil], .inr (.inr (.inr ⟨t, rfl, rfl, rfl, rfl, hl⟩))⟩
        | cons e outer => exact ⟨[], by simp [settled_cons], .inl rfl⟩

/-- What stands in no open group is a front of all that is read in the end. -/
theorem settled_prefix {n : Nat} {ts : List Token} (h : scanFrom n outer done cs = some ts) :
    settled outer done <+: ts := by
  induction n generalizing outer done cs with
  | zero => cases h
  | succ n ih =>
    rw [scanFrom_succ] at h
    split at h
    · cases outer with
      | nil =>
        cases h
        exact List.prefix_refl _
      | cons => cases h
    · obtain ⟨⟨o, d, rest⟩, ha, hr⟩ := Option.bind_eq_some_iff.mp h
      obtain ⟨-, new, hs, -⟩ := advance_cases ha
      exact (List.prefix_append _ new).trans (hs ▸ ih hr)

/-- Whether the scanner comes to a place of a text: with these groups open, these tokens read since,
and the rest of the text ahead. -/
inductive Reaches (text : List Char) :
    List (Delimiter × List Token) → List Token → List Char → Prop
  | start : Reaches text [] [] text
  | step {outer o : List (Delimiter × List Token)} {done d : List Token} {cs rest : List Char}
    (h : Reaches text outer done cs) (ha : advance outer done (skipGaps cs.length cs) =
      some (o, d, rest)) : Reaches text o d rest

namespace Reaches

private theorem suffix (h : Reaches text outer done cs) : cs <:+ text := by
  induction h with
  | start => exact List.suffix_refl _
  | step _ ha ih => exact ((advance_cases ha).1.trans (skipGaps_suffix _ _)).trans ih

/-- The scanner goes on from a place that it comes to. -/
theorem exists_scanFrom (h : Reaches text outer done cs) {ts : List Token}
    (hs : scanChars text = some ts) : ∃ n, scanFrom n outer done cs = some ts := by
  induction h with
  | start => exact ⟨_, hs⟩
  | step _ ha ih =>
    obtain ⟨n, hn⟩ := ih
    cases n with
    | zero => cases hn
    | succ n =>
      rw [scanFrom_succ] at hn
      split at hn
      · rename_i hnil
        rw [hnil] at ha
        cases ha
      · rename_i hcons
        rw [hcons] at ha
        rw [ha] at hn
        exact ⟨n, hn⟩

end Reaches

/-! Marks -/

private theorem not_mem_docTokens {inner : Bool} {here : List Char} {c : Char} {s : Spacing}
    (hc : c ≠ '#' ∧ c ≠ '!') : .mark c s ∉ docTokens inner here := by
  cases inner <;> simp [docTokens, hc]

/-- The scanner comes to the place before a mark that stands in no group. A mark of a documentation
comment is not written as such. -/
theorem exists_reaches_mark {n : Nat} {us vs : List Token} {c : Char} {s : Spacing}
    (hc : c ≠ '#' ∧ c ≠ '!') (hr : Reaches text outer done cs)
    (h : scanFrom n outer done cs = some (us ++ .mark c s :: vs))
    (hl : (settled outer done).length ≤ us.length) :
    ∃ k here rest, Reaches text [] us.reverse here ∧ skipGaps here.length here = c :: rest ∧
      leaf? (c :: rest) = some (.mark c s, rest) ∧ Reaches text [] (.mark c s :: us.reverse) rest ∧
      scanFrom k [] (.mark c s :: us.reverse) rest = some (us ++ .mark c s :: vs) := by
  induction n generalizing outer done cs with
  | zero => cases h
  | succ n ih =>
    have hfront := settled_prefix h
    rw [scanFrom_succ] at h
    split at h
    · cases outer with
      | nil =>
        have hlen := congrArg List.length (Option.some.inj h)
        simp only [settled_nil, List.length_append, List.length_cons, List.length_reverse]
          at hlen hl
        omega
      | cons => cases h
    · rename_i e later hskip
      obtain ⟨⟨o, d, rest⟩, ha, hrest⟩ := Option.bind_eq_some_iff.mp h
      have hstep : Reaches text o d rest := hr.step (hskip ▸ ha)
      obtain ⟨-, new, hs, hnew⟩ := advance_cases ha
      by_cases hlen : (settled o d).length ≤ us.length
      · exact ih hstep hrest hlen
      · -- the mark is among the tokens that this step adds
        have hus : us ++ [.mark c s] <+: us ++ .mark c s :: vs := ⟨vs, by simp⟩
        have hnext := settled_prefix hrest
        obtain ⟨more, rfl⟩ := List.prefix_of_prefix_length_le hfront (List.prefix_append us _) hl
        have hshort : (settled outer done ++ more ++ [Token.mark c s]).length ≤
            (settled o d).length := by
          rw [List.length_append, List.length_singleton]
          omega
        have hmore := List.prefix_of_prefix_length_le hus hnext hshort
        rw [hs, List.append_assoc, List.prefix_append_right_inj] at hmore
        have hmem : .mark c s ∈ new := hmore.subset (by simp)
        obtain rfl | ⟨inner, text, rfl⟩ | ⟨f, body, rfl⟩ | ⟨t, rfl, rfl, rfl, rfl, hleaf⟩ := hnew
        · cases hmem
        · exact absurd hmem (not_mem_docTokens hc)
        · cases List.mem_singleton.mp hmem
        · obtain rfl := List.mem_singleton.mp hmem
          obtain rfl : more = [] := by
            have := hmore.length_le
            simpa using this
          have hwritten : [c] ++ rest = e :: later := append_of_leaf? hleaf
          cases hwritten
          rw [List.append_nil, settled_nil, List.reverse_reverse] at *
          exact ⟨n, cs, rest, hr, hskip, hleaf, hstep, hrest⟩

private theorem plainComment?_eq_none (hl : ¬ ['/', '/'] <+: cs) (hb : ¬ ['/', '*'] <+: cs) :
    plainComment? cs = none := by
  rcases cs with _ | ⟨a, cs⟩
  · rfl
  · by_cases ha : a = '/'
    · subst ha
      rcases cs with _ | ⟨b, cs⟩
      · rfl
      · simp only [List.cons_prefix_cons, List.nil_prefix, and_true, true_and] at hl hb
        simp [plainComment?, Ne.symm hl, Ne.symm hb]
    · simp [plainComment?, ha]

/-- Where a mark is ahead, the step reads a token and opens or closes no group. -/
theorem advance_of_mark? (h : (mark? cs).isSome = true) (outer : List (Delimiter × List Token))
    (done : List Token) : ∃ c rest, cs = c :: rest ∧ skipGaps cs.length cs = cs ∧
      advance outer done cs = (leaf? cs).map fun r => (outer, r.1 :: done, r.2) := by
  obtain ⟨⟨c, rest⟩, hm⟩ := Option.isSome_iff_exists.mp h
  obtain rfl := cons_of_mark? hm
  rw [mark?_cons] at hm
  split at hm
  · cases hm
  · rename_i hcomment
    split at hm
    · rename_i hc
      rw [not_or] at hcomment
      have hall : ∀ d ∈ markChars, isGap d = false ∧ opens d = none ∧ closes d = none :=
        List.all_iff_forall_prop.mp (by decide)
      obtain ⟨hgap, hopen, hclose⟩ := hall c (by simpa using hc)
      refine ⟨c, rest, rfl, ?_, ?_⟩
      · rw [List.length_cons, skipGaps, plainComment?_eq_none hcomment.1 hcomment.2]
        simp [hgap]
      · simp only [advance, docComment?_eq_none hcomment.1 hcomment.2, hopen, hclose]
    · cases hm

/-- The scanner comes to the place behind two colons that stand in no group. -/
theorem exists_reaches_colons {us vs : List Token} {s : Spacing}
    (h : scanChars text = some (us ++ .mark ':' .joint :: .mark ':' s :: vs)) :
    ∃ last, ':' :: ':' :: last <:+ text ∧
      Reaches text [] (us ++ [Token.mark ':' .joint, .mark ':' s]).reverse last := by
  obtain ⟨k, here, rest, hhere, hskip, hleaf, hr, hrest⟩ :=
    exists_reaches_mark (by decide) .start h (Nat.zero_le _)
  have hjoint : (mark? rest).isSome = true := by
    rw [leaf?_mark (by decide)] at hleaf
    by_contra hn
    simp [hn] at hleaf
  obtain ⟨c, later, rfl, hgaps, ha⟩ := advance_of_mark? hjoint [] (.mark ':' .joint :: us.reverse)
  cases k with
  | zero => cases hrest
  | succ k =>
    rw [scanFrom_succ, hgaps] at hrest
    simp only [ha] at hrest
    obtain ⟨_, hstep, hlast⟩ := Option.bind_eq_some_iff.mp hrest
    obtain ⟨⟨t, last⟩, ht, he⟩ := Option.map_eq_some_iff.mp hstep
    cases he
    have hprefix := settled_prefix hlast
    rw [settled_nil, List.reverse_cons, List.reverse_cons, List.reverse_reverse,
      List.append_assoc, List.prefix_append_right_inj] at hprefix
    obtain rfl : t = .mark ':' s := by
      have := List.cons_prefix_cons.mp hprefix
      exact (List.cons_prefix_cons.mp this.2).1
    have hwritten : ':' :: last = c :: later := append_of_leaf? ht
    obtain ⟨rfl, rfl⟩ := List.cons.inj hwritten
    refine ⟨last, ?_, ?_⟩
    · rw [← hskip]
      exact (skipGaps_suffix _ _).trans hhere.suffix
    · have hs := hr.step (hgaps.symm ▸ (ha.trans hstep))
      simpa using hs

end Switchboard.Source.Lexer
