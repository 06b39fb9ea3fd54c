import Switchboard.Proofs.JoinedText
import Switchboard.Proofs.LongerPaths

/-! Paths with names written behind them. What is written behind a path is a part of the comment
that ends its text, or else is read after its tokens, so that a path with names behind is a path. -/

namespace Switchboard.Source

open Text

namespace Lexer

variable {xs : List Char}

/-- One step in a text that no gap begins: the groups that are open after it, what was read since,
and what is left. -/
def advance (outer : List (Delimiter × List Token)) (done : List Token) (cs : List Char) :
    Option (List (Delimiter × List Token) × List Token × List Char) :=
  match docComment? cs with
  | some (inner, text, rest) => some (outer, (docTokens inner text).reverse ++ done, rest)
  | none => match cs with
    | [] => none
    | c :: rest => match opens c, closes c with
      | some d, _ => some ((d, done) :: outer, [], rest)
      | none, some d => match outer with
        | (e, before) :: outer =>
          if d = e then some (outer, .group d done.reverse :: before, rest) else none
        | [] => none
      | none, none => (leaf? (c :: rest)).map fun (t, rest) => (outer, t :: done, rest)

theorem scanFrom_succ (n : Nat) (outer : List (Delimiter × List Token)) (done : List Token)
    (cs : List Char) : scanFrom (n + 1) outer done cs = match skipGaps cs.length cs with
      | [] => if outer.isEmpty then some done.reverse else none
      | c :: rest => (advance outer done (c :: rest)).bind fun (outer, done, rest) =>
        scanFrom n outer done rest := by
  rw [scanFrom]
  cases skipGaps cs.length cs with
  | nil => rfl
  | cons c rest =>
    simp only [advance]
    cases docComment? (c :: rest) with
    | some found => rfl
    | none =>
      cases opens c with
      | some d => rfl
      | none =>
        cases closes c with
        | some d =>
          rcases outer with _ | ⟨⟨e, before⟩, outer⟩
          · rfl
          · simp only
            split <;> rfl
        | none => cases leaf? (c :: rest) <;> rfl

/-- A step in front of more text is the same step, unless the text ends with a comment that
documents something, or with a mark, which is then joint to what is behind it. -/
theorem advance_trail (hx : Trails xs) {outer o : List (Delimiter × List Token)}
    {done d : List Token} {c : Char} {cs rest : List Char}
    (h : advance outer done (c :: cs) = some (o, d, rest)) :
    advance outer done (c :: cs ++ xs) = some (o, d, rest ++ xs) ∨
      rest = [] ∧ ∃ t before, d = t :: before ∧ ((∃ e body, t = .group e body) ∨
        advance outer done (c :: cs ++ xs) = some (o, respace [] t :: before, xs)) := by
  rcases docComment?_trail hx (c :: cs) with hd | ⟨inner, text, hd⟩
  · unfold advance at h ⊢
    rw [hd]
    cases hc : docComment? (c :: cs) with
    | some found =>
      rw [hc] at h
      cases h
      exact .inl rfl
    | none =>
      simp only [hc, List.cons_append, Option.map_none] at h ⊢
      cases ho : opens c with
      | some e =>
        simp only [ho] at h
        cases h
        exact .inl rfl
      | none =>
        cases hq : closes c with
        | some e =>
          simp only [ho, hq] at h ⊢
          split at h
          · split at h
            · rename_i he
              cases h
              exact .inl (if_pos he)
            · cases h
          · cases h
        | none =>
          simp only [ho, hq] at h ⊢
          obtain ⟨⟨t, later⟩, hl, hr⟩ := Option.map_eq_some_iff.mp h
          cases hr
          rw [leaf?_trail hx, hl]
          cases later with
          | nil => exact .inr ⟨rfl, t, _, rfl, .inr rfl⟩
          | cons e later =>
            have hsame : respace (e :: later) t = t := by cases t <;> rfl
            exact .inl (by rw [Option.map_some, Option.map_some, hsame])
  · unfold advance at h
    rw [hd] at h
    cases h
    obtain ⟨front, body, hdoc⟩ : ∃ front body,
        docTokens inner text = front ++ [.group .bracket body] := ⟨_, _, rfl⟩
    refine .inr ⟨rfl, .group .bracket body, front.reverse ++ done, ?_, .inl ⟨_, _, rfl⟩⟩
    rw [hdoc, List.reverse_append]
    rfl

/-- Tokens as they are read if text is written behind them: the last one may be a mark that is joint
to it. -/
def Respaced (ts read : List Token) : Prop :=
  read = ts ∨ ∃ us t, ts = us ++ [t] ∧ read = us ++ [respace [] t]

private theorem scanFrom_nil {n : Nat} {outer : List (Delimiter × List Token)}
    {done ts : List Token}
    (h : scanFrom n outer done [] = some ts) : outer = [] ∧ ts = done.reverse := by
  cases n with
  | zero => cases h
  | succ n =>
    cases outer with
    | nil =>
      cases h
      exact ⟨rfl, rfl⟩
    | cons => cases h

/-- What is written behind a text that does not end with a group is a part of the comment that ends
it, or is read after its tokens. -/
theorem scanFrom_trail (hx : Trails xs) {n : Nat} {outer : List (Delimiter × List Token)}
    {done ts : List Token} {cs : List Char} (h : scanFrom n outer done cs = some ts)
    (hl : ∀ d body, ts.getLast? ≠ some (.group d body)) :
    ∃ j < n, (∀ k, scanFrom (j + k + 1) outer done (cs ++ xs) = some ts) ∨
      ∃ read, Respaced ts read ∧
        ∀ k, scanFrom (j + k + 1) outer done (cs ++ xs) = scanFrom (k + 1) [] read.reverse xs := by
  induction n generalizing outer done cs with
  | zero => cases h
  | succ n ih =>
    have hxs : skipGaps xs.length xs = xs := by
      obtain ⟨more, rfl⟩ := hx.colons
      rfl
    rw [scanFrom_succ] at h
    have hstep (k : Nat) : scanFrom (k + 1) outer done (cs ++ xs) =
        match skipGaps (cs ++ xs).length (cs ++ xs) with
        | [] => if outer.isEmpty then some done.reverse else none
        | c :: rest => (advance outer done (c :: rest)).bind fun (outer, done, rest) =>
          scanFrom k outer done rest := scanFrom_succ ..
    rcases skipGaps_trail hx (Nat.le_refl cs.length) (Nat.le_refl (cs ++ xs).length) with
      hskip | ⟨hskip, hskip'⟩
    · cases hs : skipGaps cs.length cs with
      | nil =>
        -- only gaps are left, and what is behind them is read as it would be without them
        rw [hs] at h hskip
        obtain ⟨rfl, rfl⟩ : outer = [] ∧ ts = done.reverse := by
          cases outer with
          | nil => exact ⟨rfl, (Option.some.inj h).symm⟩
          | cons => cases h
        refine ⟨0, Nat.succ_pos n, .inr ⟨_, .inl rfl, fun k => ?_⟩⟩
        rw [List.reverse_reverse, Nat.zero_add, scanFrom_succ, scanFrom_succ, hskip, hxs]
        rfl
      | cons c rest =>
        rw [hs] at h hskip
        simp only [hskip, List.cons_append] at hstep
        obtain ⟨⟨o, d, later⟩, ha, hr⟩ := Option.bind_eq_some_iff.mp h
        rcases advance_trail hx ha with ha' | ⟨rfl, t, before, rfl, hg | ha'⟩
        · rw [List.cons_append] at ha'
          simp only [ha', Option.bind_some] at hstep
          obtain ⟨j, hj, hall⟩ := ih hr
          refine ⟨j + 1, Nat.succ_lt_succ hj, ?_⟩
          simpa only [hstep, Nat.add_right_comm] using hall
        · obtain ⟨e, body, rfl⟩ := hg
          obtain ⟨rfl, rfl⟩ := scanFrom_nil hr
          exact absurd (by simp) (hl e body)
        · obtain ⟨rfl, rfl⟩ := scanFrom_nil hr
          rw [List.cons_append] at ha'
          simp only [ha', Option.bind_some] at hstep
          have hn : 0 < n := by
            rcases n with _ | n
            · cases hr
            · exact Nat.succ_pos n
          refine ⟨1, Nat.succ_lt_succ hn, .inr ⟨before.reverse ++ [respace [] t],
            .inr ⟨before.reverse, t, List.reverse_cons, rfl⟩, fun k => ?_⟩⟩
          rw [Nat.add_comm 1 k, hstep]
          simp
    · rw [hskip] at h
      exact ⟨0, Nat.succ_pos n, .inl fun k => by rw [scanFrom_succ, hskip', h]⟩

private theorem scanChars_trail (hx : Trails xs) {cs : List Char} {ts : List Token}
    (h : scanChars cs = some ts) (hl : ∀ d body, ts.getLast? ≠ some (.group d body)) :
    scanChars (cs ++ xs) = some ts ∨ ∃ read n, Respaced ts read ∧ xs.length < n ∧
      scanChars (cs ++ xs) = scanFrom n [] read.reverse xs := by
  obtain ⟨j, hj, hall⟩ := scanFrom_trail hx h hl
  have hn : scanChars (cs ++ xs) =
      scanFrom (j + (cs.length - j + xs.length) + 1) [] [] (cs ++ xs) := by
    rw [scanChars, List.length_append]
    congr 1
    omega
  rw [hn]
  refine hall.imp (fun hall => hall _) ?_
  rintro ⟨read, hr, hall⟩
  exact ⟨read, _, hr, by omega, hall _⟩

/-! ## Names behind a path -/

/-- Names as they are written, with two colons in front of each. -/
def linkText (ws : List Word) : List Char :=
  ws.flatMap fun w => ':' :: ':' :: w.written.toList

private theorem linkText_cons (w : Word) (ws : List Word) :
    linkText (w :: ws) = ':' :: ':' :: (w.written.toList ++ linkText ws) := rfl

variable {w : Word} {ws : List Word}

/-- Besides the colons nothing is written but characters of names and the sign of a raw one. -/
theorem mem_linkText (hl : ∀ w ∈ ws, w.isLegible = true) {c : Char} (hc : c ∈ linkText ws) :
    c = ':' ∨ c = '#' ∨ Identifier.isContinue c = true := by
  obtain ⟨w, hw, hc⟩ := List.mem_flatMap.mp hc
  obtain ⟨d, cs, hwritten, hd, hcs⟩ := exists_written (hl w hw)
  simp only [hwritten, List.mem_cons] at hc
  obtain rfl | rfl | rfl | hc := hc
  · exact .inl rfl
  · exact .inl rfl
  · exact .inr (.inr hd)
  · exact .inr (hcs c hc).symm

theorem trails_linkText (hne : ws ≠ []) (hl : ∀ w ∈ ws, w.isLegible = true) :
    Trails (linkText ws) where
  colons := by
    obtain ⟨w, ws, rfl⟩ := List.exists_cons_of_ne_nil hne
    exact ⟨_, linkText_cons w ws⟩
  plain c hc := by
    obtain rfl | rfl | h := mem_linkText hl hc
    · decide
    · decide
    · have hall : ∀ e ∈ ['"', '/', '\n', '\r'], Identifier.isContinue e = false :=
        List.all_iff_forall_prop.mp (by decide)
      intro hs
      rw [hall c hs] at h
      cases h

theorem scanFrom_colon (n : Nat) (done : List Token) (cs : List Char) :
    scanFrom (n + 1) [] done (':' :: cs) =
      scanFrom n [] (.mark ':' (if (mark? cs).isSome then .joint else .alone) :: done) cs := by
  have hleaf := leaf?_mark (c := ':') (by decide) cs
  have hstep : advance [] done (':' :: cs) =
      (leaf? (':' :: cs)).map fun (t, rest) => ([], t :: done, rest) := rfl
  have hskip : skipGaps (':' :: cs).length (':' :: cs) = ':' :: cs := rfl
  rw [scanFrom_succ, hskip]
  simp only [hstep, hleaf, Option.map_some, Option.bind_some]

private theorem scanFrom_written (hw : w.isLegible = true) (hx : xs = [] ∨ Trails xs) (n : Nat)
    (done : List Token) : scanFrom (n + 1) [] done (w.written.toList ++ xs) =
      scanFrom n [] (.word w :: done) xs := by
  have hword : leaf? (w.written.toList ++ []) = some (.word w, []) := leaf?_word hw rfl
  obtain ⟨c, cs, he, hc, -⟩ := exists_written hw
  rw [he, List.append_nil] at hword
  have hleaf : leaf? (c :: (cs ++ xs)) = some (.word w, xs) := by
    obtain rfl | hx := hx
    · rwa [List.append_nil]
    · rw [leaf?_trail hx, hword]
      rfl
  rw [he, List.cons_append, scanFrom_succ, skipGaps_of_isContinue hc]
  simp only [advance, docComment?_of_isContinue hc, opens_of_isContinue hc,
    closes_of_isContinue hc, hleaf, Option.map_some, Option.bind_some]

/-- Names with colons in front are read as such. -/
theorem scanFrom_linkText (hl : ∀ w ∈ ws, w.isLegible = true) {n : Nat}
    (hn : (linkText ws).length < n) (done : List Token) :
    scanFrom n [] done (linkText ws) = some (done.reverse ++ NamePath.links ws) := by
  induction ws generalizing n done with
  | nil =>
    obtain ⟨n, rfl⟩ : ∃ k, n = k + 1 := ⟨n - 1, by omega⟩
    exact congrArg some (List.append_nil _).symm
  | cons w ws ih =>
    obtain ⟨hw, hws⟩ := List.forall_mem_cons.mp hl
    obtain ⟨c, cs, he, hc, -⟩ := exists_written hw
    have hmark : mark? (w.written.toList ++ linkText ws) = none := by
      obtain ⟨hm, hs⟩ := sign_of_isContinue hc
      simp only [List.mem_cons, not_or] at hs
      simp [he, mark?, hs, hm]
    have hx : linkText ws = [] ∨ Trails (linkText ws) := by
      cases ws with
      | nil => exact .inl rfl
      | cons v ws => exact .inr (trails_linkText (List.cons_ne_nil v ws) hws)
    rw [linkText_cons] at hn ⊢
    simp only [List.length_cons, List.length_append, he] at hn
    obtain ⟨n, rfl⟩ : ∃ k, n = k + 3 := ⟨n - 3, by omega⟩
    have hjoint : (mark? (':' :: (w.written.toList ++ linkText ws))).isSome = true := rfl
    rw [scanFrom_colon, scanFrom_colon, scanFrom_written hw hx, ih hws (by omega), hmark,
      if_pos hjoint]
    simp [NamePath.links_cons]

private theorem dropOrderMark_trail (hx : Trails xs) (cs : List Char) :
    dropOrderMark (cs ++ xs) = dropOrderMark cs ++ xs := by
  cases cs with
  | nil =>
    obtain ⟨more, rfl⟩ := hx.colons
    rfl
  | cons c cs =>
    by_cases hc : c = '\ufeff'
    · subst hc
      rfl
    · simp [dropOrderMark, hc]

end Lexer

open Lexer

/-- A text with names behind it, as they are written. -/
def joined (text : String) (ws : List Word) : String :=
  ws.foldl (fun outer w => outer ++ "::" ++ w.written) text

theorem toList_joined (text : String) (ws : List Word) :
    (joined text ws).toList = text.toList ++ linkText ws := by
  induction ws generalizing text with
  | nil => exact (List.append_nil _).symm
  | cons w ws ih =>
    have hstep : joined text (w :: ws) = joined (text ++ "::" ++ w.written) ws := rfl
    rw [hstep, ih, linkText_cons]
    simp

/-- What is read of a text with names behind it: what is read of the text, of which a mark at the
end is joint now, and the names, or nothing more if a comment ends the text. -/
theorem scan_joined {text : String} {ts : List Token} {ws : List Word} (h : scan text = some ts)
    (hg : ∀ d body, ts.getLast? ≠ some (.group d body)) (hl : ∀ w ∈ ws, w.isLegible = true) :
    scan (joined text ws) = some ts ∨
      ∃ read, Respaced ts read ∧ scan (joined text ws) = some (read ++ NamePath.links ws) := by
  by_cases hne : ws = []
  · subst hne
    exact .inl h
  · have hx := trails_linkText hne hl
    have hscan : scan (joined text ws) = scanChars (dropOrderMark text.toList ++ linkText ws) := by
      rw [scan, toList_joined, dropOrderMark_trail hx]
    rw [hscan]
    refine (scanChars_trail hx h hg).imp_right ?_
    rintro ⟨read, n, hr, hn, hread⟩
    exact ⟨read, hr, by rw [hread, scanFrom_linkText hl hn, List.reverse_reverse]⟩

theorem isSome_path?_iff {text : String} : (path? text).isSome = true ↔
    ∃ ts, scan text = some ts ∧
      (recognise (fun g => Path.unqualified g false) ts).isSome = true := by
  unfold path?
  cases scan text with
  | none => simp
  | some ts =>
    simp only [Option.some.injEq, exists_eq_left']
    cases hr : recognise (fun g => Path.unqualified g false) ts <;> simp [hr]

/-- A path with names behind it that may be segments is a path. -/
theorem isSome_path?_joined {text : String} {ws : List Word} (h : (path? text).isSome = true)
    (hs : ∀ w ∈ ws, w.isSegment = true) (hl : ∀ w ∈ ws, w.isLegible = true) :
    (path? (joined text ws)).isSome = true := by
  obtain ⟨ts, hscan, hpath⟩ := isSome_path?_iff.mp h
  obtain ⟨us, e, rfl, hall⟩ := isSome_recognise_path hpath
  have hg (d : Delimiter) (body : List Token) :
      (us ++ [e.last]).getLast? ≠ some (.group d body) := by
    rw [List.getLast?_concat]
    cases e <;> exact nofun
  rw [isSome_path?_iff]
  rcases scan_joined hscan hg hl with hjoined | ⟨read, hread, hjoined⟩
  · exact ⟨_, hjoined, hpath⟩
  · obtain ⟨e', he, hnames, hmore⟩ : ∃ e' : Ending, e'.last = e.last ∧ e'.names = ws ∧
        read ++ NamePath.links ws = us ++ e'.more := by
      obtain ⟨t, hlast, hend⟩ : ∃ t, read = us ++ [t] ∧ (t = e.last ∨ t = respace [] e.last) := by
        rcases hread with rfl | ⟨us', t, hts, rfl⟩
        · exact ⟨_, rfl, .inl rfl⟩
        · obtain ⟨rfl, ht⟩ := List.append_inj' hts rfl
          obtain rfl : e.last = t := List.head_eq_of_cons_eq ht
          exact ⟨_, rfl, .inr rfl⟩
      cases e with
      | word w names =>
        obtain rfl : t = .word w := by rcases hend with rfl | rfl <;> rfl
        exact ⟨.word w ws, rfl, rfl, by rw [hlast, List.append_assoc]; rfl⟩
      | angle s r names =>
        obtain ⟨q, rfl⟩ : ∃ q, t = .mark '>' q := by rcases hend with rfl | rfl <;> exact ⟨_, rfl⟩
        exact ⟨.angle s q ws, rfl, rfl, by rw [hlast, List.append_assoc]; rfl⟩
    exact ⟨_, hjoined, by rw [hmore]; exact hall e' he (by rwa [hnames])⟩

end Switchboard.Source
