import Switchboard.Naming.Check
import Switchboard.Proofs.Places
import Switchboard.Schema.Path

/-! Last segments of paths. A path is split at the last two colons of its text, which are those in
front of its last segment unless that has two colons of its own. -/

namespace Switchboard

/-! ## Texts -/

namespace SchemaPath

variable {cs before after : List Char}

private theorem splitLast_eq_none_iff : splitLast cs = none ↔ ¬[':', ':'] <:+: cs := by
  fun_induction splitLast cs with
  | case1 => simp
  | case2 c rest before after hs ih =>
    have hrest : [':', ':'] <:+: rest := by simpa [hs] using ih
    exact iff_of_false nofun (not_not_intro (List.infix_cons hrest))
  | case3 after hs ih => exact iff_of_false nofun (not_not_intro ⟨[], after, rfl⟩)
  | case4 c rest hs hn ih =>
    refine iff_of_true rfl fun h => ?_
    rcases List.infix_cons_iff.mp h with ⟨after, he⟩ | hrest
    · cases he
      exact hn after rfl rfl
    · exact ih.mp hs hrest

/-- What stands behind the last two colons has none itself, also together with the last of them. -/
theorem of_splitLast (h : splitLast cs = some (before, after)) :
    cs = before ++ ':' :: ':' :: after ∧ ¬[':', ':'] <:+: ':' :: after := by
  fun_induction splitLast cs generalizing before with
  | case1 => cases h
  | case2 c rest front after hs ih =>
    cases h
    obtain ⟨he, hn⟩ := ih hs
    exact ⟨by rw [he]; rfl, hn⟩
  | case3 after hs ih =>
    cases h
    exact ⟨rfl, splitLast_eq_none_iff.mp hs⟩
  | case4 => cases h

/-- A text is split at two colons that have none behind them. -/
theorem splitLast_append_iff : splitLast (before ++ ':' :: ':' :: after) = some (before, after) ↔
    ¬[':', ':'] <:+: ':' :: after := by
  refine ⟨fun h => (of_splitLast h).2, fun h => ?_⟩
  induction before with
  | nil =>
    rw [List.nil_append, splitLast.eq_def]
    simp only [splitLast_eq_none_iff.mpr h]
  | cons c before ih => simp [splitLast, ih]

/-- The texts before and after the last two colons make up the text. -/
theorem text_of_module? {p : SchemaPath} {m : String} (h : p.module? = some m) :
    p.text = m ++ "::" ++ p.ident := by
  obtain ⟨⟨before, after⟩, hs, rfl⟩ := Option.map_eq_some_iff.mp h
  have hident : p.ident = String.ofList after := by rw [ident, hs]
  apply String.toList_injective
  simp [hident, (of_splitLast hs).1]

variable {p : SchemaPath} {front last : String}

private theorem ident_eq_text_iff : p.ident = p.text ↔ ¬[':', ':'] <:+: p.text.toList := by
  rw [← splitLast_eq_none_iff, ident]
  cases hs : splitLast p.text.toList with
  | none => simp
  | some r =>
    obtain ⟨before, after⟩ := r
    refine iff_of_false (fun he => ?_) nofun
    have hlen := congrArg List.length (of_splitLast hs).1
    rw [← he, String.toList_ofList] at hlen
    simp at hlen
    omega

private theorem module?_eq_none_iff : p.module? = none ↔ ¬[':', ':'] <:+: p.text.toList := by
  rw [module?, Option.map_eq_none_iff, splitLast_eq_none_iff]

/-- What stands behind two colons is what the text is split off if there are no colons behind them,
and what stands before them is then the module. -/
theorem ident_eq_iff (ht : p.text = front ++ "::" ++ last) (hl : last.toList.head? ≠ some ':') :
    (p.ident = last ↔ ¬[':', ':'] <:+: last.toList) ∧
      (p.module? = some front ↔ ¬[':', ':'] <:+: last.toList) ∧ p.module? ≠ none := by
  have hcs : p.text.toList = front.toList ++ ':' :: ':' :: last.toList := by simp [ht]
  have hcolon : [':', ':'] <:+: ':' :: last.toList ↔ [':', ':'] <:+: last.toList := by
    rw [List.infix_cons_iff]
    refine or_iff_right ?_
    rintro ⟨more, he⟩
    exact hl (by rw [← List.cons.inj he |>.2]; rfl)
  have hsplit : splitLast (front.toList ++ ':' :: ':' :: last.toList) =
      some (front.toList, last.toList) ↔ _ := splitLast_append_iff
  rw [← hcs, hcolon] at hsplit
  rw [← hsplit, ident, module?]
  cases hs : splitLast p.text.toList with
  | none =>
    exact absurd ⟨front.toList, last.toList, by simp [hcs]⟩ (splitLast_eq_none_iff.mp hs)
  | some r =>
    obtain ⟨before, after⟩ := r
    have he := (of_splitLast hs).1.symm.trans hcs
    simp only [Option.map_some, Option.some.injEq, Prod.mk.injEq, ← String.toList_inj,
      String.toList_ofList]
    refine ⟨⟨fun ha => ⟨?_, ha⟩, And.right⟩, ⟨fun hb => ⟨hb, ?_⟩, And.left⟩, nofun⟩
    · rw [ha] at he
      exact List.append_cancel_right he
    · rw [hb] at he
      exact (List.cons.inj (List.cons.inj (List.append_cancel_left he)).2).2

end SchemaPath

/-! ## Readings -/

namespace Source

open Parse

namespace Path

/-- Two colons. What follows them may be another mark or not. -/
def colons (s : Spacing) : List Token := [.mark ':' .joint, .mark ':' s]

/-- That tokens are read as this many segments with two colons between them: the tokens before the
last segment, and those of the last segment. -/
inductive Ends (g : Grammar) : List Token → Nat → List Token → List Token → Prop
  | one {ts : List Token} {bare : Bool} (h : Reads (segment g false) ts bare []) : Ends g ts 1 [] ts
  | more {ts rest front last : List Token} {s : Spacing} {bare : Bool} {n : Nat}
    (h : Reads (segment g false) (ts ++ colons s ++ rest) bare (colons s ++ rest))
    (hr : Ends g rest n front last) :
    Ends g (ts ++ colons s ++ rest) (n + 1) (ts ++ colons s ++ front) last

namespace Ends

variable {g : Grammar} {ts front last : List Token} {n : Nat}

private theorem append (h : Ends g ts n front last) : ts = front ++ last := by
  induction h with
  | one => rfl
  | more _ _ ih => rw [ih]; exact (List.append_assoc ..).symm

/-- In front of the last segment stand two colons, unless it is the only one. -/
theorem front_cases (h : Ends g ts n front last) :
    n = 1 ∧ front = [] ∨ 1 < n ∧ ∃ before s, front = before ++ colons s := by
  induction h with
  | one => exact .inl ⟨rfl, rfl⟩
  | @more ts _ _ _ s _ _ _ _ ih =>
    obtain ⟨rfl, rfl⟩ | ⟨hn, before, t, rfl⟩ := ih
    · exact .inr ⟨Nat.lt_succ_self 1, ts, s, List.append_nil _⟩
    · exact .inr ⟨Nat.lt_succ_of_lt hn, ts ++ colons s ++ before, t, (List.append_assoc ..).symm⟩

/-- The last segment begins with a name. -/
theorem begins (h : Ends g ts n front last) : ∃ w more, last = .word w :: more := by
  induction h with
  | one h =>
    obtain ⟨_, hb⟩ := h.exists_eq []
    obtain ⟨w, more, hts, -⟩ := begins_of_segment hb
    exact ⟨w, more, hts⟩
  | more _ _ ih => exact ih

end Ends

/-- That nothing is left or a path goes on to its end with segments behind two colons. -/
def GoesOn (g : Grammar) (ts : List Token) : Prop :=
  ts = [] ∨ ∃ s rest n front last, ts = colons s ++ rest ∧ Ends g rest n front last

variable {g : Grammar} [hd : g.Deepens g] {c d : Cursor}

/-- A segment and what comes after it, if a path goes on with that to its end. -/
theorem exists_ends_of_segment {bare : Bool} (h : segment g false c = some (bare, d))
    (hd : GoesOn g d.ahead) : ∃ n front last, Ends g c.ahead n front last := by
  have hbelow : Below (segment g false) (segment g false) := inferInstance
  have hr := hbelow.reads h
  obtain ⟨ts, -, hc, -⟩ := hbelow.run h
  obtain hnil | ⟨s, rest, n, front, last, hrest, hends⟩ := hd
  · rw [hnil] at hr
    exact ⟨_, _, _, .one hr⟩
  · rw [hc, hrest] at hr ⊢
    rw [← List.append_assoc] at hr ⊢
    exact ⟨_, _, _, .more hr hends⟩

/-- The further segments of a path that is read to its end. -/
theorem goesOn_of_further {form form' : PathForm} (h : further g false form c = some (form', d))
    (hn : d.ahead = []) : GoesOn g c.ahead := by
  have hr := runs_of_repeated h
  clear h
  induction hr with
  | stop hs =>
    rw [sees_bind] at hs
    split at hs
    · obtain ⟨⟨_, _⟩, _, hs⟩ := Option.bind_eq_some_iff.mp hs
      obtain ⟨⟨_, _⟩, _, hs⟩ := Option.bind_eq_some_iff.mp hs
      cases hs
    · cases hs
      exact .inl hn
  | more hs _ ih =>
    rw [sees_bind] at hs
    split at hs
    · obtain ⟨⟨_, _⟩, hmark, hs⟩ := Option.bind_eq_some_iff.mp hs
      obtain ⟨⟨_, _⟩, hseg, hs⟩ := Option.bind_eq_some_iff.mp hs
      cases hs
      obtain ⟨hcolons, hdrop⟩ := ahead_of_mark hmark
      obtain ⟨s, rest, hc⟩ := exists_colons hcolons
      obtain ⟨n, front, last, hends⟩ := exists_ends_of_segment hseg (ih hn)
      rw [hdrop, hc] at hends
      exact .inr ⟨s, rest, n, front, last, hc, hends⟩
    · cases hs

/-- A path that is read to its end, perhaps with two colons in front. -/
theorem exists_ends_of_unqualified {form : PathForm} (h : unqualified g false c = some (form, d))
    (hn : d.ahead = []) : ∃ lead ts n front last, c.ahead = lead ++ ts ∧
      (lead = [] ∨ ∃ s, lead = colons s) ∧ Ends g ts n front last := by
  obtain ⟨⟨rooted, c₁⟩, hmark, h⟩ := Option.bind_eq_some_iff.mp h
  obtain ⟨⟨bare, c₂⟩, hseg, h⟩ := Option.bind_eq_some_iff.mp h
  obtain ⟨n, front, last, hends⟩ := exists_ends_of_segment hseg (goesOn_of_further h hn)
  obtain ⟨-, hm⟩ | ⟨-, rfl, -⟩ := ahead_of_mark? hmark
  · obtain ⟨hcolons, hdrop⟩ := ahead_of_mark hm
    obtain ⟨s, rest, hc⟩ := exists_colons hcolons
    rw [hdrop, hc] at hends
    exact ⟨colons s, rest, n, front, last, hc, .inr ⟨s, rfl⟩, hends⟩
  · exact ⟨[], c₁.ahead, n, front, last, rfl, .inl rfl, hends⟩

end Path

open Source.Path

/-- That a text is a path of this many segments, with two colons in front of the last one and this
text before them, if any colons are there, and this text behind them. The colons are marks of the
path itself: at the place behind them the scanner has read the tokens before the last segment. -/
inductive Divides (text : String) : Nat → Option String → String → Prop
  | alone {ts : List Token} {depth : Nat} (hs : scan text = some ts)
    (he : Ends (.upTo depth) ts 1 [] ts) : Divides text 1 none text
  | behind {lead front us : List Token} {depth count : Nat} {before last : String}
    (hs : scan text = some (lead ++ front ++ us)) (hl : lead = [] ∨ ∃ s, lead = colons s)
    (he : Ends (.upTo depth) (front ++ us) count front us) (ht : text = before ++ "::" ++ last)
    (hr : Lexer.Reaches (Lexer.dropOrderMark text.toList) [] (lead ++ front).reverse last.toList) :
    Divides text count (some before) last

/-- What is accepted as a path has a last segment. -/
theorem exists_divides {text : String} (h : (path? text).isSome = true) :
    ∃ count before? last, Divides text count before? last := by
  obtain ⟨ts, hscan, hpath⟩ := isSome_path?_iff.mp h
  obtain ⟨form, behind, hr⟩ := isSome_inside_iff.mp hpath
  have := Grammar.deepens_upTo (Nat.le_refl (8 * Token.sizeAll ts + 8))
  obtain ⟨lead, more, n, front, last, hts, hlead, hends⟩ := exists_ends_of_unqualified hr rfl
  obtain rfl : ts = lead ++ more := hts
  obtain rfl := hends.append
  have hcolons : lead ++ front = [] ∨ ∃ us s, lead ++ front = us ++ colons s := by
    obtain ⟨-, rfl⟩ | ⟨-, us, s, rfl⟩ := hends.front_cases
    · obtain rfl | ⟨s, rfl⟩ := hlead
      · exact .inl rfl
      · exact .inr ⟨[], s, List.append_nil _⟩
    · exact .inr ⟨lead ++ us, s, (List.append_assoc ..).symm⟩
  rw [← List.append_assoc] at hscan
  obtain hnil | ⟨us, s, hus⟩ := hcolons
  · obtain ⟨rfl, rfl⟩ := List.append_eq_nil_iff.mp hnil
    obtain ⟨rfl, -⟩ | ⟨-, us, s, he⟩ := hends.front_cases
    · exact ⟨1, none, text, .alone hscan hends⟩
    · simp [colons] at he
  · have hs : Lexer.scanChars (Lexer.dropOrderMark text.toList) =
        some (us ++ .mark ':' .joint :: .mark ':' s :: last) := by
      have hs := hscan
      rw [hus, List.append_assoc] at hs
      exact hs
    obtain ⟨cs, hsuffix, hreaches⟩ := Lexer.exists_reaches_colons hs
    obtain ⟨before, hbefore⟩ := hsuffix.trans (Lexer.dropOrderMark_suffix _)
    refine ⟨n, some (String.ofList before), String.ofList cs, .behind hscan hlead hends ?_ ?_⟩
    · apply String.toList_injective
      simp [← hbefore]
    · rw [hus, String.toList_ofList]
      exact hreaches

private theorem Divides.text_eq {text before last : String} {count : Nat}
    (h : Divides text count (some before) last) : text = before ++ "::" ++ last := by
  cases h
  assumption

/-- The text behind the colons does not begin with a colon. -/
theorem Divides.head?_ne {text before last : String} {count : Nat}
    (h : Divides text count (some before) last) : last.toList.head? ≠ some ':' := by
  cases h with
  | @behind lead front us _ _ _ _ hs _ he _ hr =>
    obtain ⟨n, hn⟩ := hr.exists_scanFrom hs
    obtain ⟨w, more, rfl⟩ := he.begins
    intro hc
    obtain ⟨cs, hcs⟩ := List.head?_eq_some_iff.mp hc
    rw [hcs] at hn
    cases n with
    | zero => cases hn
    | succ n =>
      rw [Lexer.scanFrom_colon] at hn
      have hprefix := Lexer.settled_prefix hn
      rw [Lexer.settled_nil, List.reverse_cons, List.reverse_reverse,
        List.prefix_append_right_inj] at hprefix
      cases (List.cons_prefix_cons.mp hprefix).1

end Source

namespace SchemaPath

open Source Source.Path Source.Parse

/-- The name and the module of a path whose text is accepted are those of its last segment just if
that has no two colons of its own and is not the only one behind two colons. -/
theorem ident_module?_iff (p : SchemaPath) (h : Naming.pathFault? p.text = none) :
    (∃ count before? last, Divides p.text count before? last) ∧
    (∀ count before? last, Divides p.text count before? last →
      (p.ident = last ↔ ¬[':', ':'] <:+: last.toList) ∧
      (p.module? = (if count = 1 then none else before?) ↔
        ¬[':', ':'] <:+: last.toList ∧ (count = 1 → before? = none))) ∧
    ∀ m, p.module? = some m → p.text = m ++ "::" ++ p.ident := by
  refine ⟨?_, fun count before? last hd => ?_, fun m => text_of_module?⟩
  · apply exists_divides
    by_contra hn
    simp [Naming.pathFault?, hn] at h
  · cases hbefore : before? with
    | none =>
      subst hbefore
      cases hd
      simp [ident_eq_text_iff, module?_eq_none_iff]
    | some before =>
      subst hbefore
      obtain ⟨hident, hmodule, hsome⟩ := ident_eq_iff (p := p) hd.text_eq hd.head?_ne
      refine ⟨hident, ?_⟩
      by_cases hc : count = 1
      · simp [hc, hsome]
      · simp [hc, hmodule]

/-- A name and one more segment. -/
theorem divides_second {text before last : String} {w : Word} {us : List Token} {bare : Bool}
    (hs : scan text = some ([.word w] ++ colons .alone ++ us)) (hw : w.isSegment = true)
    (hl : Reads (segment (.upTo 2) false) us bare []) (ht : text = before ++ "::" ++ last)
    (hr : Lexer.Reaches (Lexer.dropOrderMark text.toList) []
      ([Token.word w] ++ colons .alone).reverse last.toList) :
    Divides text 2 (some before) last := by
  have hd := Grammar.deepens_upTo (Nat.le_refl 2)
  obtain ⟨v, more, rfl⟩ := (Ends.one hl).begins
  have hfirst : Reads (segment (.upTo 2) false) ([.word w] ++ colons .alone ++ .word v :: more)
      true (colons .alone ++ .word v :: more) := reads_segment hw rfl
  have hends := Ends.more hfirst (.one hl)
  rw [List.append_nil] at hends
  exact .behind (by rwa [List.nil_append]) (.inl rfl) hends ht hr

/-- A path of two names is divided between them. -/
theorem ident_module?_names : Naming.pathFault? "b::C" = none ∧
    Divides "b::C" 2 (some "b") "C" ∧ (mk "b::C").ident = "C" ∧
    (mk "b::C").module? = some "b" := by
  have hpath : Naming.pathFault? "b::C" = none := by decide +kernel
  have hscan : scan "b::C" = some
      ([.word (.plain "b")] ++ colons .alone ++ [.word (.plain "C")]) := by decide +kernel
  have hdivides : Divides "b::C" 2 (some "b") "C" :=
    divides_second hscan (by decide +kernel) (fun _ => rfl) (by decide +kernel)
      (.step (.step (.step .start rfl) rfl) rfl)
  obtain ⟨hident, hmodule⟩ := (ident_module?_iff ⟨"b::C"⟩ hpath).2.1 2 (some "b") "C" hdivides
  exact ⟨hpath, hdivides, hident.mpr (by decide +kernel), hmodule.mpr (by decide +kernel)⟩

/-- A path that is not divided where its last segment begins: that has arguments with two colons. -/
theorem ident_module?_arguments : Naming.pathFault? (of "a::X<b::C>").text = none ∧
    Divides (of "a::X<b::C>").text 2 (some "a") "X<b::C>" ∧
    (of "a::X<b::C>").ident = "C>" ∧ (of "a::X<b::C>").module? = some "a::X<b" := by
  have ht : (of "a::X<b::C>").text = "a::X<b::C>" := by decide +kernel
  have hscan : scan "a::X<b::C>" = some ([.word (.plain "a")] ++ colons .alone ++
      [.word (.plain "X"), .mark '<' .alone, .word (.plain "b"), .mark ':' .joint,
        .mark ':' .alone, .word (.plain "C"), .mark '>' .alone]) := by decide +kernel
  rw [ht]
  refine ⟨by decide +kernel, ?_, by decide +kernel, by decide +kernel⟩
  exact divides_second hscan (by decide +kernel) (fun _ => rfl) (by decide +kernel)
    (.step (.step (.step .start rfl) rfl) rfl)

end SchemaPath

end Switchboard
