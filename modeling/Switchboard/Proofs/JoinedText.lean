import Mathlib.Data.Bool.Basic
import Mathlib.Data.List.Infix
import Switchboard.Proofs.Legible
import Switchboard.Proofs.SolidText

/-! Texts with more text behind. Two colons and names that are written behind a text change none of
its tokens, except that its last mark is joint to them. -/

namespace Switchboard.Source

open Text

namespace Lexer

/-- What is written behind a path so that it goes on: two colons first, and in all of it nothing
that ends a literal, a comment or a line. -/
structure Trails (xs : List Char) : Prop where
  colons : ∃ more, xs = ':' :: ':' :: more
  plain : ∀ c ∈ xs, c ∉ ['"', '/', '\n', '\r']

section

variable {content : Content} {cs rest xs : List Char}

theorem dropWhile_trail {p : Char → Bool} (hp : p ':' = false) (hx : Trails xs) (cs : List Char) :
    (cs ++ xs).dropWhile p = cs.dropWhile p ++ xs := by
  obtain ⟨more, rfl⟩ := hx.colons
  induction cs with
  | nil => simp [hp]
  | cons c cs ih => cases hc : p c <;> simp [hc, ih]

private theorem takeWhile_trail {p : Char → Bool} (hp : p ':' = false) (hx : Trails xs)
    (cs : List Char) :
    (cs ++ xs).takeWhile p = cs.takeWhile p := by
  obtain ⟨more, rfl⟩ := hx.colons
  induction cs with
  | nil => simp [hp]
  | cons c cs ih => cases hc : p c <;> simp [hc, ih]

private theorem name?_trail (hx : Trails xs) (cs : List Char) :
    name? (cs ++ xs) = (name? cs).map fun r => (r.1, r.2 ++ xs) := by
  have hc : Identifier.isContinue ':' = false ∧ Identifier.isStart ':' = false := by decide
  cases cs with
  | nil =>
    obtain ⟨more, rfl⟩ := hx.colons
    simp [name?, hc]
  | cons c cs =>
    rw [List.cons_append, name?, name?, takeWhile_trail hc.1 hx, dropWhile_trail hc.1 hx]
    split <;> rfl

private theorem afterSuffix_trail (hx : Trails xs) (cs : List Char) :
    afterSuffix (cs ++ xs) = afterSuffix cs ++ xs := by
  rw [afterSuffix, name?_trail hx, afterSuffix]
  cases name? cs <;> rfl

private theorem not_isHex_colon : isHex ':' = false := by decide

private theorem codePoint_trail (hx : Trails xs) (value digits : Nat) (cs : List Char) :
    codePoint value digits (cs ++ xs) =
      (codePoint value digits cs).map fun r => (r.1, r.2 ++ xs) := by
  obtain ⟨more, rfl⟩ := hx.colons
  fun_induction codePoint value digits cs <;> grind [codePoint, not_isHex_colon]

private theorem afterEscape_trail (content : Content) (hx : Trails xs) (cs : List Char) :
    afterEscape content (cs ++ xs) = (afterEscape content cs).map (· ++ xs) := by
  have hcode := codePoint_trail hx
  obtain ⟨more, rfl⟩ := hx.colons
  fun_cases afterEscape content cs
  case case9 c rest hn hu h0 hc =>
    -- a letter that asks for more than is left may find it in what is behind
    cases content <;> rcases rest with _ | ⟨a, _ | ⟨b, rest⟩⟩ <;> by_cases hx : c = 'x' <;>
      by_cases hu : c = 'u' <;> simp_all [afterEscape, not_isHex_colon]
  all_goals grind [afterEscape, not_isHex_colon]

private theorem hashes_trail (hx : Trails xs) (n : Nat) (cs : List Char) :
    hashes n (cs ++ xs) = (hashes n cs).map (· ++ xs) := by
  obtain ⟨more, rfl⟩ := hx.colons
  fun_induction hashes n cs
  case case1 => rfl
  case case2 ih => exact ih
  case case3 n cs hn =>
    cases cs with
    | nil => rfl
    | cons c cs => simp_all [hashes]

private theorem afterTick_trail (hx : Trails xs) (cs : List Char) :
    afterTick (cs ++ xs) = (afterTick cs).map (· ++ xs) := by
  obtain ⟨more, rfl⟩ := id hx.colons
  cases cs with
  | nil => rfl
  | cons c cs =>
    by_cases hc : c = '\''
    · subst hc
      exact congrArg some (afterSuffix_trail hx cs)
    · simp [afterTick, hc]

private theorem afterExponent_trail (hx : Trails xs) (before : Option (List Char))
    (signed valued : Bool)
    (cs : List Char) : afterExponent (before.map (· ++ xs)) signed valued (cs ++ xs) =
      (afterExponent before signed valued cs).map (· ++ xs) := by
  have hd : (':').isDigit = false := by decide
  obtain ⟨more, rfl⟩ := hx.colons
  fun_induction afterExponent before signed valued cs <;> grind [afterExponent]

private theorem afterDigits_trail (hx : Trails xs) (base : Nat) (empty : Bool) (cs : List Char) :
    afterDigits base empty (cs ++ xs) = (afterDigits base empty cs).map (· ++ xs) := by
  have hd : (':').isDigit = false := by decide
  obtain ⟨more, rfl⟩ := hx.colons
  fun_induction afterDigits base empty cs <;> grind [afterDigits, not_isHex_colon]

private theorem afterContinuation_trail (hx : Trails xs) (cs : List Char) :
    afterContinuation (cs ++ xs) = (afterContinuation cs).map (· ++ xs) ∨
      afterContinuation cs = none ∧ afterContinuation (cs ++ xs) = some xs := by
  obtain ⟨more, rfl⟩ := hx.colons
  fun_induction afterContinuation cs
  case case2 cs hn => cases cs <;> simp_all [afterContinuation]
  all_goals simp_all [afterContinuation]

/-- What is left after an escape or a continued line, the backslash of which has been read. -/
def afterBackslash (content : Content) (cs : List Char) : Option (List Char) :=
  match cs with
  | '\n' :: _ | '\r' :: _ => afterContinuation cs
  | _ => afterEscape content cs

private theorem afterBackslash_trail (content : Content) (hx : Trails xs) (cs : List Char) :
    afterBackslash content (cs ++ xs) = (afterBackslash content cs).map (· ++ xs) ∨
      afterBackslash content cs = none ∧ afterBackslash content (cs ++ xs) = some xs := by
  have hescape := afterEscape_trail content hx cs
  have hcontinue := afterContinuation_trail hx cs
  cases cs with
  | nil =>
    obtain ⟨more, rfl⟩ := hx.colons
    exact .inl hescape
  | cons c cs =>
    by_cases hn : c = '\n'
    · subst hn
      exact hcontinue
    · by_cases hr : c = '\r'
      · subst hr
        exact hcontinue
      · left
        simpa [afterBackslash, hn, hr] using hescape

private theorem suffix_of_afterBackslash (h : afterBackslash content cs = some rest) :
    rest <:+ cs := by
  unfold afterBackslash at h
  split at h
  · exact suffix_of_afterContinuation h
  · exact suffix_of_afterContinuation h
  · exact suffix_of_afterEscape h

/-- Whether a character may stand in a text. -/
def fits (content : Content) (c : Char) : Bool :=
  match content with
  | .text => true
  | .bytes => c.toNat < 128
  | .terminated => c != '\x00'

private theorem afterQuoted_backslash (n : Nat) (cs : List Char) :
    afterQuoted content (n + 1) ('\\' :: cs) = match afterBackslash content cs with
      | some rest => afterQuoted content n rest
      | none => none := rfl

/-- One step in a text with escapes. -/
theorem afterQuoted_cons (n : Nat) (c : Char) (cs : List Char) :
    afterQuoted content (n + 1) (c :: cs) =
      if c = '"' then some (afterSuffix cs)
      else if c = '\r' then match cs with
        | '\n' :: rest => afterQuoted content n rest
        | _ => none
      else if c = '\\' then (afterBackslash content cs).bind (afterQuoted content n)
      else if fits content c then afterQuoted content n cs else none := by
  by_cases hq : c = '"'
  · subst hq
    rfl
  · by_cases hr : c = '\r'
    · subst hr
      rw [if_neg hq, if_pos rfl]
      cases cs with
      | nil => rfl
      | cons d cs =>
        by_cases hd : d = '\n'
        · subst hd
          rfl
        · simp [afterQuoted, hd]
    · by_cases hb : c = '\\'
      · subst hb
        rw [if_neg hq, if_neg hr, if_pos rfl, afterQuoted_backslash]
        cases afterBackslash content cs <;> rfl
      · rw [if_neg hq, if_neg hr, if_neg hb, afterQuoted.eq_def]
        cases content <;> split <;> simp_all [fits]

/-- Without a quote nothing closes a text with escapes. -/
theorem afterQuoted_eq_none {n : Nat} (h : ∀ c ∈ cs, c ≠ '"') :
    afterQuoted content n cs = none := by
  induction n generalizing cs with
  | zero => rfl
  | succ n ih =>
    cases cs with
    | nil => rfl
    | cons c cs =>
      obtain ⟨hc, hcs⟩ := List.forall_mem_cons.mp h
      rw [afterQuoted_cons, if_neg hc]
      split
      · split
        · exact ih fun d hd => hcs d (List.mem_cons_of_mem _ hd)
        · rfl
      · split
        · rw [Option.bind_eq_none_iff]
          exact fun later hl => ih fun d hd => hcs d ((suffix_of_afterBackslash hl).mem hd)
        · split
          · exact ih hcs
          · rfl

private theorem afterQuoted_trail (hx : Trails xs) {n m : Nat} (hn : cs.length < n)
    (hm : (cs ++ xs).length < m) :
    afterQuoted content m (cs ++ xs) = (afterQuoted content n cs).map (· ++ xs) := by
  have hplain (m : Nat) : afterQuoted content m xs = none :=
    afterQuoted_eq_none fun c hc he => hx.plain c hc (by simp [he])
  induction n generalizing cs m with
  | zero => omega
  | succ n ih =>
    obtain ⟨m, rfl⟩ : ∃ k, m = k + 1 := ⟨m - 1, by omega⟩
    cases cs with
    | nil => exact hplain _
    | cons c cs =>
      rw [List.cons_append] at hm ⊢
      simp only [List.length_cons, List.length_append] at hn hm
      rw [afterQuoted_cons, afterQuoted_cons, afterSuffix_trail hx]
      split
      · rfl
      · split
        · cases cs with
          | nil =>
            obtain ⟨more, rfl⟩ := hx.colons
            rfl
          | cons d cs =>
            by_cases hd : d = '\n'
            · subst hd
              simp only [List.length_cons] at hn hm
              exact ih (by omega) (by simp only [List.length_append]; omega)
            · simp [hd]
        · split
          · rcases afterBackslash_trail content hx cs with hb | ⟨hb, hb'⟩
            · rw [hb]
              cases hl : afterBackslash content cs with
              | none => rfl
              | some later =>
                have := (suffix_of_afterBackslash hl).length_le
                exact ih (by omega) (by simp only [List.length_append]; omega)
            · rw [hb, hb', Option.bind_some, hplain]
              rfl
          · split
            · exact ih (by omega) (by simp only [List.length_append]; omega)
            · rfl

/-- Without a quote nothing closes a text without escapes. -/
theorem afterRaw_eq_none {n : Nat} (h : ∀ c ∈ cs, c ≠ '"') : afterRaw content n cs = none := by
  fun_induction afterRaw content n cs <;> grind

/-- One step in a text without escapes. -/
theorem afterRaw_cons (n : Nat) (c : Char) (cs : List Char) :
    afterRaw content n (c :: cs) =
      if c = '\r' then match cs with
        | '\n' :: rest => afterRaw content n rest
        | _ => none
      else match if c = '"' then hashes n cs else none with
        | some rest => some (afterSuffix rest)
        | none => if fits content c then afterRaw content n cs else none := by
  by_cases hr : c = '\r'
  · subst hr
    rw [if_pos rfl]
    cases cs with
    | nil => rfl
    | cons d cs =>
      by_cases hd : d = '\n'
      · subst hd
        rfl
      · simp [afterRaw, hd]
  · rw [if_neg hr, afterRaw.eq_def]
    by_cases hq : c = '"'
    · subst hq
      cases content <;> cases hh : hashes n cs <;> simp_all [fits]
    · cases content <;> split <;> simp_all [fits]

private theorem afterRaw_trail (hx : Trails xs) (n : Nat) (cs : List Char) :
    afterRaw content n (cs ++ xs) = (afterRaw content n cs).map (· ++ xs) := by
  have hplain : afterRaw content n xs = none :=
    afterRaw_eq_none fun c hc he => hx.plain c hc (by simp [he])
  induction hl : cs.length using Nat.strong_induction_on generalizing cs with
  | _ k ih =>
    cases cs with
    | nil => exact hplain
    | cons c cs =>
      subst hl
      rw [List.cons_append, afterRaw_cons, afterRaw_cons, hashes_trail hx]
      split
      · cases cs with
        | nil =>
          obtain ⟨more, rfl⟩ := hx.colons
          rfl
        | cons d cs =>
          by_cases hd : d = '\n'
          · subst hd
            exact ih _ (by simp only [List.length_cons]; omega) cs rfl
          · simp [hd]
      · have hrest := ih _ (by simp) cs rfl
        by_cases hq : c = '"'
        · cases hh : hashes n cs with
          | some later => simp [hq, afterSuffix_trail hx]
          | none =>
            simp only [hq, if_true, Option.map_none, hrest]
            split <;> rfl
        · simp only [hq, if_false, hrest]
          split <;> rfl

private theorem raw?_trail (content : Content) (hx : Trails xs) (cs : List Char) :
    raw? content (cs ++ xs) = (raw? content cs).map (· ++ xs) := by
  have hw : (cs ++ xs).takeWhile (· == '#') = cs.takeWhile (· == '#') := takeWhile_trail rfl hx cs
  have hl : (cs.takeWhile (· == '#')).length ≤ cs.length := (List.takeWhile_prefix _).length_le
  simp only [raw?, hw, List.drop_append_of_le_length hl]
  cases cs.drop (cs.takeWhile (· == '#')).length with
  | nil =>
    obtain ⟨more, rfl⟩ := hx.colons
    rfl
  | cons c rest =>
    by_cases hc : c = '"'
    · subst hc
      simp only [List.cons_append]
      split
      · exact afterRaw_trail hx _ rest
      · rfl
    · simp [hc]

private theorem quoted?_trail (hx : Trails xs) (cs : List Char) :
    quoted? (cs ++ xs) = (quoted? cs).map (· ++ xs) := by
  have hq (content : Content) (rest : List Char) :
      afterQuoted content ((rest ++ xs).length + 1) (rest ++ xs) =
        (afterQuoted content (rest.length + 1) rest).map (· ++ xs) :=
    afterQuoted_trail hx (Nat.lt_succ_self _) (Nat.lt_succ_self _)
  have hr (content : Content) (rest : List Char) := raw?_trail content hx rest
  obtain ⟨more, rfl⟩ := hx.colons
  fun_cases quoted? cs
  case case7 =>
    rcases cs with _ | ⟨a, _ | ⟨b, cs⟩⟩ <;> simp_all [quoted?]
  all_goals simp only [List.cons_append, quoted?, hq, hr]

private theorem character?_trail (hx : Trails xs) (cs : List Char) :
    character? (cs ++ xs) = (character? cs).map (· ++ xs) := by
  have ht := afterTick_trail hx
  have he (content : Content) (rest : List Char) :
      (afterEscape content (rest ++ xs)).bind afterTick =
        ((afterEscape content rest).bind afterTick).map (· ++ xs) := by
    rw [afterEscape_trail content hx]
    cases afterEscape content rest with
    | none => rfl
    | some later => exact ht later
  obtain ⟨more, rfl⟩ := hx.colons
  fun_cases character? cs
  case case5 c rest hb hn =>
    simp only [List.cons_append, character?, if_neg hn, Option.map_none]
  case case6 =>
    rcases cs with _ | ⟨a, cs⟩
    · rfl
    · by_cases ha : a = '\''
      · subst ha
        cases cs with
        | nil => rfl
        | cons b cs => simp_all
      · by_cases hb : a = 'b'
        · subst hb
          rcases cs with _ | ⟨b, _ | ⟨c, cs⟩⟩
          · rfl
          · by_cases hq : b = '\''
            · subst hq
              rfl
            · simp [character?, hq]
          · simp_all [character?]
        · simp [character?, ha, hb]
  all_goals simp_all [character?]

private theorem afterFloatDigits_trail (hx : Trails xs) (cs : List Char) :
    afterFloatDigits (cs ++ xs) = (afterFloatDigits cs).map (· ++ xs) := by
  have hg : isDigitOrGap ':' = false := by decide
  have he (before : Option (List Char)) := afterExponent_trail hx before false false
  have hdrop := dropWhile_trail hg hx
  obtain ⟨more, hmore⟩ := hx.colons
  cases cs with
  | nil =>
    subst hmore
    rfl
  | cons c cs =>
    rw [List.cons_append, afterFloatDigits, afterFloatDigits, hdrop]
    split
    · rfl
    · cases cs.dropWhile isDigitOrGap with
      | nil =>
        subst hmore
        rfl
      | cons d fraction =>
        by_cases hp : d = '.'
        · subst hp
          have hhead : (fraction ++ xs).head?.any (fun d => d == '.' || Identifier.isStart d) =
              fraction.head?.any fun d => d == '.' || Identifier.isStart d := by
            have hs : Identifier.isStart ':' = false := by decide
            cases fraction with
            | nil => simp [hmore, hs]
            | cons => rfl
          simp only [List.cons_append, hhead, hdrop]
          split
          · rfl
          · cases fraction.dropWhile isDigitOrGap with
            | nil =>
              subst hmore
              rfl
            | cons f later =>
              by_cases hf : f = 'e' ∨ f = 'E'
              · rcases hf with rfl | rfl
                · exact he (some ('e' :: later)) later
                · exact he (some ('E' :: later)) later
              · rw [not_or] at hf
                simp [hf]
        · by_cases hf : d = 'e' ∨ d = 'E'
          · rcases hf with rfl | rfl
            · exact he none fraction
            · exact he none fraction
          · rw [not_or] at hf
            simp [hp, hf]

private theorem afterIntDigits_trail (hx : Trails xs) (cs : List Char) :
    afterIntDigits (cs ++ xs) = (afterIntDigits cs).map (· ++ xs) := by
  have hd := afterDigits_trail hx
  obtain ⟨more, rfl⟩ := hx.colons
  fun_cases afterIntDigits cs
  case case4 =>
    have hten : afterIntDigits (cs ++ ':' :: ':' :: more) =
        afterDigits 10 true (cs ++ ':' :: ':' :: more) := by
      rcases cs with _ | ⟨a, _ | ⟨b, cs⟩⟩ <;> simp_all [afterIntDigits]
    rw [hten, hd]
  all_goals simp only [List.cons_append, afterIntDigits, hd]

private theorem number?_trail {digits : List Char → Option (List Char)} (hx : Trails xs)
    {cs : List Char} (hd : digits (cs ++ xs) = (digits cs).map (· ++ xs)) :
    number? digits (cs ++ xs) = (number? digits cs).map (· ++ xs) := by
  rw [number?, hd, number?]
  cases digits cs with
  | none => rfl
  | some rest =>
    simp only [Option.map_some, afterSuffix_trail hx]
    cases afterSuffix rest with
    | nil =>
      obtain ⟨more, rfl⟩ := hx.colons
      have hc : Identifier.isContinue ':' = false := by decide
      simp [hc]
    | cons c rest =>
      cases hc : Identifier.isContinue c <;> simp [hc]

private theorem literal?_trail (hx : Trails xs) (cs : List Char) :
    literal? (cs ++ xs) = (literal? cs).map (· ++ xs) := by
  simp only [literal?, Option.orElse_eq_orElse, Option.orElse_eq_or, Option.map_or,
    quoted?_trail hx, character?_trail hx, number?_trail hx (afterFloatDigits_trail hx cs),
    number?_trail hx (afterIntDigits_trail hx cs)]

private theorem word?_trail (hx : Trails xs) (cs : List Char) :
    word? (cs ++ xs) = (word? cs).map fun r => (r.1, r.2 ++ xs) := by
  have hn := name?_trail hx
  by_cases hraw : ∃ rest, cs = 'r' :: '#' :: rest
  · obtain ⟨rest, rfl⟩ := hraw
    rw [List.cons_append, List.cons_append, word?, word?, hn]
    cases name? rest with
    | none => rfl
    | some found =>
      simp only [Option.map_some]
      split <;> rfl
  · have hplain (ds : List Char) (h : ∀ rest, ds ≠ 'r' :: '#' :: rest) :
        word? ds = (name? ds).map fun r => (.plain (String.ofList r.1), r.2) := by
      unfold word?
      split
      · exact absurd rfl (h _)
      · rfl
    rw [hplain cs fun rest he => hraw ⟨rest, he⟩, hplain (cs ++ xs), hn, Option.map_map,
      Option.map_map]
    · rfl
    · obtain ⟨more, rfl⟩ := hx.colons
      rcases cs with _ | ⟨a, _ | ⟨b, cs⟩⟩ <;> simp_all

/-- How quoted and raw literals begin. -/
def literalFronts : List (List Char) :=
  ["r\"", "r#\"", "r##", "b\"", "b'", "br\"", "br#", "c\"", "cr\"", "cr#"].map String.toList

private theorem beginsLiteral_iff (cs : List Char) :
    beginsLiteral cs = true ↔ ∃ p ∈ literalFronts, p <+: cs := by
  constructor
  · intro h
    unfold beginsLiteral at h
    split at h
    case h_11 => cases h
    all_goals simp [literalFronts]
  · rintro ⟨p, hp, tail, rfl⟩
    simp only [literalFronts, List.map_cons, List.map_nil, List.mem_cons, List.not_mem_nil,
      or_false] at hp
    rcases hp with rfl | rfl | rfl | rfl | rfl | rfl | rfl | rfl | rfl | rfl <;> rfl

private theorem prefix_trail (hx : Trails xs) {p : List Char} (hp : ':' ∉ p) (cs : List Char) :
    p <+: cs ++ xs ↔ p <+: cs := by
  refine ⟨fun h => ?_, fun h => h.trans (List.prefix_append cs xs)⟩
  obtain ⟨more, rfl⟩ := hx.colons
  induction p generalizing cs with
  | nil => exact List.nil_prefix
  | cons c p ih =>
    obtain ⟨hc, hp⟩ : ':' ≠ c ∧ ':' ∉ p := by simpa using hp
    cases cs with
    | nil => exact absurd (List.cons_prefix_cons.mp h).1.symm hc
    | cons d cs =>
      obtain ⟨rfl, hcs⟩ := List.cons_prefix_cons.mp h
      exact List.cons_prefix_cons.mpr ⟨rfl, ih hp cs hcs⟩

private theorem beginsLiteral_trail (hx : Trails xs) (cs : List Char) :
    beginsLiteral (cs ++ xs) = beginsLiteral cs := by
  have hall : ∀ p ∈ literalFronts, ':' ∉ p := by decide
  rw [Bool.eq_iff_iff, beginsLiteral_iff, beginsLiteral_iff]
  exact exists_congr fun p => and_congr_right fun hp => prefix_trail hx (hall p hp) cs

/-- A mark is read where no comment begins. -/
theorem mark?_cons (c : Char) (cs : List Char) :
    mark? (c :: cs) = if ['/', '/'] <+: c :: cs ∨ ['/', '*'] <+: c :: cs then none
      else if markChars.contains c then some (c, cs) else none := by
  split
  · rename_i h
    rcases h with ⟨tail, he⟩ | ⟨tail, he⟩ <;>
      · rw [← he]
        rfl
  · rename_i h
    rw [not_or] at h
    unfold mark?
    split
    · rename_i he
      exact absurd ⟨_, he.symm⟩ h.1
    · rename_i he
      exact absurd ⟨_, he.symm⟩ h.2
    · rename_i he
      cases he
      rfl
    · cases ‹_ = _›

private theorem mark?_trail (hx : Trails xs) (c : Char) (cs : List Char) :
    mark? (c :: (cs ++ xs)) = (mark? (c :: cs)).map fun r => (r.1, r.2 ++ xs) := by
  have hline := prefix_trail hx (p := ['/', '/']) (by decide) (c :: cs)
  have hblock := prefix_trail hx (p := ['/', '*']) (by decide) (c :: cs)
  rw [List.cons_append] at hline hblock
  simp only [mark?_cons, hline, hblock]
  split
  · rfl
  · split <;> rfl

private theorem isSome_mark?_trail (hx : Trails xs) (cs : List Char) :
    (mark? (cs ++ xs)).isSome = (cs.isEmpty || (mark? cs).isSome) := by
  cases cs with
  | nil =>
    obtain ⟨more, rfl⟩ := hx.colons
    rfl
  | cons c cs =>
    rw [List.cons_append, mark?_trail hx, Option.isSome_map, List.isEmpty_cons, Bool.false_or]

/-- A token as it is read if text is written behind it: a mark at the end is joint to that. -/
def respace (rest : List Char) : Token → Token
  | .mark c s => .mark c (if rest.isEmpty then .joint else s)
  | t => t

private theorem markToken?_trail (hx : Trails xs) (c : Char) (cs : List Char) :
    markToken? (c :: (cs ++ xs)) =
      (markToken? (c :: cs)).map fun r => (respace r.2 r.1, r.2 ++ xs) := by
  rw [markToken?, markToken?, mark?_trail hx]
  cases mark? (c :: cs) with
  | none => rfl
  | some found =>
    obtain ⟨d, rest⟩ := found
    by_cases hd : d = '\''
    · subst hd
      simp only [Option.map_some, word?_trail hx]
      cases hw : word? rest with
      | none => rfl
      | some found =>
        obtain ⟨w, later⟩ := found
        have hrest : respace rest (.mark '\'' .joint) = .mark '\'' .joint := by
          cases rest <;> rfl
        simp only [Option.map_some]
        cases later with
        | nil =>
          obtain ⟨more, rfl⟩ := hx.colons
          simp [hrest]
        | cons e later =>
          by_cases ht : e = '\''
          · subst ht
            rfl
          · by_cases hh : e = '#'
            · subst hh
              cases w.raw <;> simp [hrest]
            · simp [ht, hh, hrest]
    · simp only [Option.map_some, isSome_mark?_trail hx]
      cases rest <;> simp [respace]

theorem leaf?_trail (hx : Trails xs) (c : Char) (cs : List Char) :
    leaf? (c :: (cs ++ xs)) = (leaf? (c :: cs)).map fun r => (respace r.2 r.1, r.2 ++ xs) := by
  have hl := literal?_trail hx (c :: cs)
  have hw := word?_trail hx (c :: cs)
  have hb := beginsLiteral_trail hx (c :: cs)
  rw [List.cons_append] at hl hw hb
  rw [leaf?, leaf?, hl, hw, hb, markToken?_trail hx]
  cases hrest : literal? (c :: cs) with
  | some rest =>
    have hle := (suffix_of_literal? hrest).length_le
    have htake : (c :: (cs ++ xs)).take ((c :: (cs ++ xs)).length - (rest ++ xs).length) =
        (c :: cs).take ((c :: cs).length - rest.length) := by
      have hlen : (c :: (cs ++ xs)).length - (rest ++ xs).length =
          (c :: cs).length - rest.length := by
        simp only [List.length_cons, List.length_append] at hle ⊢
        omega
      rw [hlen, ← List.cons_append, List.take_append_of_le_length (Nat.sub_le _ _)]
    simp only [Option.map_some, htake]
    rfl
  | none =>
    simp only [Option.map_none, Option.orElse_eq_orElse, Option.orElse_eq_or, Option.map_or]
    congr 1
    split
    · rfl
    · cases word? (c :: cs) <;> rfl

/-! Gaps and comments -/

private theorem line_eq_self (h : ∀ c ∈ cs, c ≠ '\n') : line cs = (cs, []) := by
  fun_induction line cs <;> simp_all

/-- What is written behind a text continues the comment that its last line ends with. -/
theorem line_trail (hx : Trails xs) (cs : List Char) :
    line (cs ++ xs) = ((line cs).1, (line cs).2 ++ xs) ∨
      (line cs).2 = [] ∧ line (cs ++ xs) = ((line cs).1 ++ xs, []) := by
  have hall : line xs = (xs, []) := line_eq_self fun c hc he => hx.plain c hc (by simp [he])
  fun_induction line cs
  case case1 => exact .inr ⟨rfl, hall⟩
  case case2 => exact .inl rfl
  case case3 => exact .inl rfl
  case case4 c rest hn hr here later hl ih =>
    have hstep : line (c :: (rest ++ xs)) =
        (c :: (line (rest ++ xs)).1, (line (rest ++ xs)).2) := by
      obtain ⟨more, rfl⟩ := hx.colons
      cases rest <;> simp_all [line]
    rw [List.cons_append, hstep]
    rcases ih with h | ⟨hend, h⟩
    · rw [h, hl]
      exact .inl rfl
    · rw [hl] at hend h
      rw [h]
      exact .inr ⟨hend, rfl⟩

private theorem block_eq_none {depth : Nat} (h : ∀ c ∈ cs, c ≠ '/') : block depth cs = none := by
  fun_induction block depth cs <;> simp_all

private theorem block_trail (hx : Trails xs) (depth : Nat) (cs : List Char) :
    block depth (cs ++ xs) = (block depth cs).map fun r => (r.1, r.2 ++ xs) := by
  have hplain (depth : Nat) : block depth xs = none :=
    block_eq_none fun c hc he => hx.plain c hc (by simp [he])
  obtain ⟨more, rfl⟩ := hx.colons
  fun_induction block depth cs
  case case1 ih =>
    simp only [List.cons_append, block, ih, Option.map_map]
    rfl
  case case2 hd => simp [block, hd]
  case case3 hd ih =>
    simp only [List.cons_append, block, if_neg hd, ih, Option.map_map]
    rfl
  case case4 depth c rest hopen hclose ih =>
    have hstep : block depth (c :: (rest ++ ':' :: ':' :: more)) =
        (block depth (rest ++ ':' :: ':' :: more)).map fun r => (c :: r.1, r.2) := by
      cases rest <;> simp_all [block]
    rw [List.cons_append, hstep, ih, Option.map_map, Option.map_map]
    rfl
  case case5 => exact hplain _

private theorem plainComment?_trail (hx : Trails xs) (cs : List Char) :
    plainComment? (cs ++ xs) = (plainComment? cs).map (· ++ xs) ∨
      plainComment? cs = some [] ∧ plainComment? (cs ++ xs) = some [] := by
  have hline (rest : List Char) : some (line (rest ++ xs)).2 = (some (line rest).2).map (· ++ xs) ∨
      some (line rest).2 = some [] ∧ some (line (rest ++ xs)).2 = some [] := by
    rcases line_trail hx rest with h | ⟨hend, h⟩
    · exact .inl (by rw [h]; rfl)
    · exact .inr ⟨by rw [hend], by rw [h]⟩
  have hblock (rest : List Char) : (block 1 (rest ++ xs)).map Prod.snd =
      ((block 1 rest).map Prod.snd).map (· ++ xs) := by
    rw [block_trail hx, Option.map_map, Option.map_map]
    rfl
  obtain ⟨more, rfl⟩ := hx.colons
  fun_cases plainComment? cs
  case case1 => exact .inl rfl
  case case2 rest => exact hline rest
  case case3 rest hn => cases rest <;> simp_all [plainComment?]
  case case4 rest hdoc hfour hthree =>
    have hplain : plainComment? ('/' :: '/' :: (rest ++ ':' :: ':' :: more)) =
        some (line (rest ++ ':' :: ':' :: more)).2 := by
      cases rest <;> simp_all [plainComment?]
    rw [List.cons_append, List.cons_append, hplain]
    exact hline rest
  case case5 => exact .inl rfl
  case case6 => exact .inl rfl
  case case7 rest => exact .inl (hblock ('*' :: '*' :: rest))
  case case8 rest hn hs => cases rest <;> simp_all [plainComment?]
  case case9 rest hempty hinner hthree hn =>
    have hplain : plainComment? ('/' :: '*' :: (rest ++ ':' :: ':' :: more)) =
        (block 1 (rest ++ ':' :: ':' :: more)).map Prod.snd := by
      cases rest <;> simp_all [plainComment?]
    rw [List.cons_append, List.cons_append, hplain]
    exact .inl (hblock rest)
  case case10 h₁ h₂ h₃ hline' h₅ h₆ h₇ h₈ hblock' =>
    left
    rcases cs with _ | ⟨a, _ | ⟨b, cs⟩⟩
    · rfl
    · simp [plainComment?]
    · simp_all [plainComment?]

private theorem linesWellEnded_trail (hx : Trails xs) (cs : List Char) :
    linesWellEnded (cs ++ xs) = linesWellEnded cs := by
  have hplain (ds : List Char) (h : ∀ c ∈ ds, c ≠ '\r') : linesWellEnded ds = true := by
    fun_induction linesWellEnded ds <;> simp_all
  have hxs := hplain xs fun c hc he => hx.plain c hc (by simp [he])
  obtain ⟨more, rfl⟩ := hx.colons
  fun_induction linesWellEnded cs
  case case3 cs hn => cases cs <;> simp_all [linesWellEnded]
  all_goals simp_all [linesWellEnded]

theorem docComment?_eq_none (hl : ¬ ['/', '/'] <+: cs) (hb : ¬ ['/', '*'] <+: cs) :
    docComment? cs = none := by
  rcases cs with _ | ⟨a, cs⟩
  · rfl
  · by_cases ha : a = '/'
    · subst ha
      rcases cs with _ | ⟨b, cs⟩
      · rfl
      · simp only [List.cons_prefix_cons, List.nil_prefix, and_true, true_and] at hl hb
        simp [docComment?, Ne.symm hl, Ne.symm hb]
    · simp [docComment?, ha]

/-- A documentation comment up to the end of its line. -/
theorem docComment?_line_trail (hx : Trails xs) {ds : List Char} (inner : Bool) (rest : List Char)
    (hd : ∀ ys, ys = [] ∨ ys = xs → docComment? (ds ++ ys) =
      if linesWellEnded (line (rest ++ ys)).1 then some (inner, line (rest ++ ys)) else none) :
    docComment? (ds ++ xs) = (docComment? ds).map (fun r => (r.1, r.2.1, r.2.2 ++ xs)) ∨
      ∃ inner text, docComment? ds = some (inner, text, []) := by
  have hnil := hd [] (.inl rfl)
  rw [List.append_nil, List.append_nil] at hnil
  rw [hd xs (.inr rfl), hnil]
  rcases line_trail hx rest with h | ⟨hend, h⟩
  · rw [h]
    left
    split <;> rfl
  · rw [h, linesWellEnded_trail hx]
    split
    · exact .inr ⟨inner, (line rest).1, by rw [← hend]⟩
    · exact .inl rfl

/-- A documentation comment up to the mark that closes it. -/
theorem docComment?_block_trail (hx : Trails xs) {ds : List Char} (inner : Bool) (rest : List Char)
    (hd : ∀ ys, ys = [] ∨ ys = xs → docComment? (ds ++ ys) =
      match (block 1 (rest ++ ys)).map fun (here, rest) => (inner, here, rest) with
      | some (inner, here, rest) => if linesWellEnded here then some (inner, here, rest) else none
      | none => none) :
    docComment? (ds ++ xs) = (docComment? ds).map fun r => (r.1, r.2.1, r.2.2 ++ xs) := by
  have hnil := hd [] (.inl rfl)
  rw [List.append_nil, List.append_nil] at hnil
  rw [hd xs (.inr rfl), hnil, block_trail hx]
  cases block 1 rest with
  | none => rfl
  | some found =>
    simp only [Option.map_some]
    split <;> rfl

theorem docComment?_trail (hx : Trails xs) (cs : List Char) :
    docComment? (cs ++ xs) = (docComment? cs).map (fun r => (r.1, r.2.1, r.2.2 ++ xs)) ∨
      ∃ inner text, docComment? cs = some (inner, text, []) := by
  obtain ⟨more, hmore⟩ := hx.colons
  fun_cases plainComment? cs
  case case1 rest => exact docComment?_line_trail hx true rest fun ys _ => rfl
  case case2 => exact .inl rfl
  case case3 rest hn =>
    refine docComment?_line_trail hx false rest fun ys hys => ?_
    have hnext : ∀ later, rest ++ ys ≠ '/' :: later := by
      rcases hys with rfl | rfl <;> cases rest <;> simp_all
    simp only [List.cons_append, docComment?]
  case case4 rest hdoc hfour hthree =>
    cases rest <;> simp_all [docComment?]
  case case5 rest => exact .inl (docComment?_block_trail hx false ('/' :: rest) fun ys _ => rfl)
  case case6 rest => exact .inl (docComment?_block_trail hx true rest fun ys _ => rfl)
  case case7 => exact .inl rfl
  case case8 rest hn hs =>
    refine .inl (docComment?_block_trail hx false rest fun ys hys => ?_)
    have hnext : ∀ later, rest ++ ys ≠ '*' :: later := by
      rcases hys with rfl | rfl <;> cases rest <;> simp_all
    rw [List.cons_append, List.cons_append, List.cons_append]
    cases hlater : rest ++ ys with
    | nil => rfl
    | cons d later =>
      have hd : d ≠ '*' := fun he => hnext later (by rw [hlater, he])
      simp [docComment?, hd]
      rfl
  case case9 rest hempty hinner hthree hn =>
    cases rest <;> simp_all [docComment?]
  case case10 h₁ h₂ h₃ hnoLine h₅ h₆ h₇ h₈ hnoBlock =>
    have hl : ¬ ['/', '/'] <+: cs := by
      rintro ⟨_, h⟩
      exact hnoLine _ h.symm
    have hb : ¬ ['/', '*'] <+: cs := by
      rintro ⟨_, h⟩
      exact hnoBlock _ h.symm
    left
    rw [docComment?_eq_none hl hb, docComment?_eq_none]
    · rfl
    · rwa [prefix_trail hx (by decide)]
    · rwa [prefix_trail hx (by decide)]

private theorem length_line_le (cs : List Char) : (line cs).2.length ≤ cs.length := by
  fun_induction line cs <;> grind

private theorem length_le_of_block {depth : Nat} {here : List Char}
    (h : block depth cs = some (here, rest)) : rest.length ≤ cs.length := by
  fun_induction block depth cs generalizing here <;> grind [Option.map_eq_some_iff]

/-- A comment that is passed over is not empty. -/
theorem length_lt_of_plainComment? (h : plainComment? cs = some rest) :
    rest.length < cs.length := by
  have hblock {ds : List Char} (h : (block 1 ds).map Prod.snd = some rest) :
      rest.length ≤ ds.length := by
    obtain ⟨⟨here, later⟩, hb, rfl⟩ := Option.map_eq_some_iff.mp h
    exact length_le_of_block hb
  revert h
  fun_cases plainComment? cs <;> grind [length_line_le]

theorem skipGaps_trail (hx : Trails xs) {n m : Nat} (hn : cs.length ≤ n)
    (hm : (cs ++ xs).length ≤ m) :
    skipGaps m (cs ++ xs) = skipGaps n cs ++ xs ∨
      skipGaps n cs = [] ∧ skipGaps m (cs ++ xs) = [] := by
  have hnil (n : Nat) : skipGaps n [] = [] := by cases n <;> rfl
  have hxs (n : Nat) : skipGaps n xs = xs := by
    obtain ⟨more, rfl⟩ := hx.colons
    cases n <;> rfl
  induction n generalizing cs m with
  | zero =>
    obtain rfl : cs = [] := List.length_eq_zero_iff.mp (Nat.le_zero.mp hn)
    exact .inl (hxs m)
  | succ n ih =>
    cases cs with
    | nil => exact .inl (by rw [List.nil_append, hxs, hnil, List.nil_append])
    | cons c cs =>
      simp only [List.length_cons, List.length_append] at hn hm
      obtain ⟨m, rfl⟩ : ∃ k, m = k + 1 := ⟨m - 1, by omega⟩
      rcases plainComment?_trail hx (c :: cs) with h | ⟨h, h'⟩
      · rw [List.cons_append] at h ⊢
        rw [skipGaps, skipGaps, h]
        cases hp : plainComment? (c :: cs) with
        | some rest =>
          have hlt := length_lt_of_plainComment? hp
          simp only [List.length_cons] at hlt
          exact ih (by omega) (by simp only [List.length_append]; omega)
        | none =>
          simp only [Option.map_none]
          split
          · exact ih (by omega) (by simp only [List.length_append]; omega)
          · exact .inl rfl
      · rw [List.cons_append] at h' ⊢
        refine .inr ⟨?_, ?_⟩
        · rw [skipGaps, h]
          exact hnil n
        · rw [skipGaps, h']
          exact hnil m

end

end Lexer

end Switchboard.Source
