import Mathlib.Data.List.Infix
import Switchboard.Proofs.Identifiers

/-! Texts with nothing between their tokens. Such a text is its tokens written one after another, so
the tokens tell what the text was, and no other text of the kind has the same. -/

namespace Switchboard.Source

namespace Lexer

/-! What is left after a literal is the end of the text that the literal begins -/

section

variable {content : Content} {cs rest : List Char}

private theorem append_of_name? {name : List Char} (h : name? cs = some (name, rest)) :
    name ++ rest = cs := by
  cases cs with
  | nil => cases h
  | cons c cs =>
    rw [name?] at h
    split at h
    · cases h
      simp
    · cases h

private theorem afterSuffix_suffix (cs : List Char) : afterSuffix cs <:+ cs := by
  unfold afterSuffix
  split
  · rename_i name rest h
    exact ⟨name, append_of_name? h⟩
  · exact List.suffix_refl cs

private theorem suffix_of_dropWhile {p : Char → Bool} {c : Char} (h : cs.dropWhile p = c :: rest) :
    rest <:+ cs :=
  (List.suffix_cons c rest).trans (h ▸ List.dropWhile_suffix p)

private theorem suffix_of_codePoint {value digits n : Nat}
    (h : codePoint value digits cs = some (n, rest)) : rest <:+ cs := by
  fun_induction codePoint value digits cs <;> grind [List.suffix_cons_iff]

theorem suffix_of_afterEscape (h : afterEscape content cs = some rest) : rest <:+ cs := by
  revert h
  fun_cases afterEscape content cs <;> grind [List.suffix_cons_iff, suffix_of_codePoint]

theorem suffix_of_afterContinuation (h : afterContinuation cs = some rest) : rest <:+ cs := by
  fun_induction afterContinuation cs <;> grind [List.suffix_cons_iff]

private theorem suffix_of_afterQuoted {n : Nat} (h : afterQuoted content n cs = some rest) :
    rest <:+ cs := by
  fun_induction afterQuoted content n cs <;>
    grind [List.suffix_cons_iff, List.IsSuffix.trans, afterSuffix_suffix, suffix_of_afterEscape,
      suffix_of_afterContinuation]

private theorem suffix_of_hashes {n : Nat} (h : hashes n cs = some rest) : rest <:+ cs := by
  fun_induction hashes n cs <;> grind [List.suffix_cons_iff]

private theorem suffix_of_afterRaw {n : Nat} (h : afterRaw content n cs = some rest) :
    rest <:+ cs := by
  fun_induction afterRaw content n cs <;>
    grind [List.suffix_cons_iff, List.IsSuffix.trans, afterSuffix_suffix, suffix_of_hashes]

private theorem suffix_of_raw? (h : raw? content cs = some rest) : rest <:+ cs := by
  simp only [raw?] at h
  split at h
  · rename_i later hl
    split at h
    · have hd := List.drop_suffix (cs.takeWhile (· == '#')).length cs
      rw [hl] at hd
      exact (suffix_of_afterRaw h).trans ((List.suffix_cons _ _).trans hd)
    · cases h
  · cases h

private theorem suffix_of_quoted? (h : quoted? cs = some rest) : rest <:+ cs := by
  unfold quoted? at h
  split at h <;> grind [List.suffix_cons_iff, suffix_of_afterQuoted, suffix_of_raw?]

private theorem suffix_of_afterTick (h : afterTick cs = some rest) : rest <:+ cs := by
  unfold afterTick at h
  split at h <;> grind [List.suffix_cons_iff, afterSuffix_suffix]

private theorem suffix_of_escaped (h : (afterEscape content cs).bind afterTick = some rest) :
    rest <:+ cs := by
  obtain ⟨later, hl, ht⟩ := Option.bind_eq_some_iff.mp h
  exact (suffix_of_afterTick ht).trans (suffix_of_afterEscape hl)

private theorem suffix_of_character? (h : character? cs = some rest) : rest <:+ cs := by
  unfold character? at h
  split at h <;> grind [List.suffix_cons_iff, suffix_of_afterTick, suffix_of_escaped]

private theorem suffix_of_afterExponent {before : Option (List Char)} {signed valued : Bool}
    {whole : List Char} (hb : ∀ later, before = some later → later <:+ whole) (hc : cs <:+ whole)
    (h : afterExponent before signed valued cs = some rest) : rest <:+ whole := by
  have hr : rest <:+ cs ∨ before = some rest := by
    clear hb hc
    fun_induction afterExponent before signed valued cs <;> grind [List.suffix_cons_iff]
  exact hr.elim (fun hs => hs.trans hc) (hb rest)

private theorem suffix_of_afterFloatDigits (h : afterFloatDigits cs = some rest) : rest <:+ cs := by
  cases cs with
  | nil => cases h
  | cons c cs =>
    refine List.IsSuffix.trans ?_ (List.suffix_cons c cs)
    simp only [afterFloatDigits] at h
    split at h
    · cases h
    · split at h
      · rename_i fraction hf
        have hd := (List.dropWhile_suffix isDigitOrGap).trans (suffix_of_dropWhile hf)
        -- the exponent may turn out to be none, and then the number ends before its letter
        have hb : ∀ later, some (fraction.dropWhile isDigitOrGap) = some later → later <:+ cs := by
          rintro _ ⟨⟩
          exact hd
        split at h
        · cases h
        · split at h
          · rename_i later hl
            exact suffix_of_afterExponent hb ((hl ▸ List.suffix_cons _ later).trans hd) h
          · rename_i later hl
            exact suffix_of_afterExponent hb ((hl ▸ List.suffix_cons _ later).trans hd) h
          · exact hb _ h
      · rename_i later hl
        exact suffix_of_afterExponent (by simp) (suffix_of_dropWhile hl) h
      · rename_i later hl
        exact suffix_of_afterExponent (by simp) (suffix_of_dropWhile hl) h
      · cases h

private theorem suffix_of_afterDigits {base : Nat} {empty : Bool}
    (h : afterDigits base empty cs = some rest) : rest <:+ cs := by
  fun_induction afterDigits base empty cs <;> grind [List.suffix_cons_iff]

private theorem suffix_of_afterIntDigits (h : afterIntDigits cs = some rest) : rest <:+ cs := by
  unfold afterIntDigits at h
  split at h <;> grind [List.suffix_cons_iff, suffix_of_afterDigits]

private theorem suffix_of_number? {digits : List Char → Option (List Char)}
    (hd : ∀ later, digits cs = some later → later <:+ cs) (h : number? digits cs = some rest) :
    rest <:+ cs := by
  unfold number? at h
  split at h
  · cases h
  · rename_i later hl
    simp only at h
    split at h
    · cases h
    · cases h
      exact (afterSuffix_suffix later).trans (hd later hl)

theorem suffix_of_literal? (h : literal? cs = some rest) : rest <:+ cs := by
  simp only [literal?, Option.orElse_eq_orElse, Option.orElse_eq_or, Option.or_eq_some_iff] at h
  rcases h with hq | ⟨-, hc | ⟨-, hf | ⟨-, hi⟩⟩⟩
  · exact suffix_of_quoted? hq
  · exact suffix_of_character? hc
  · exact suffix_of_number? (fun _ => suffix_of_afterFloatDigits) hf
  · exact suffix_of_number? (fun _ => suffix_of_afterIntDigits) hi

end

end Lexer

/-! The tokens of a text written one after another -/

/-- The character that opens a group. -/
def Delimiter.opener : Delimiter → Char
  | .paren => '('
  | .bracket => '['
  | .brace => '\x7b'

/-- The character that closes a group. -/
def Delimiter.closer : Delimiter → Char
  | .paren => ')'
  | .bracket => ']'
  | .brace => '\x7d'

namespace Token

mutual
/-- The characters of a token tree with nothing between its tokens. -/
def solid : Token → List Char
  | .word w => w.written.toList
  | .mark c _ => [c]
  | .literal text => text.toList
  | .group d body => d.opener :: (solidAll body ++ [d.closer])

/-- The characters of token trees with nothing between their tokens. -/
def solidAll : List Token → List Char
  | [] => []
  | t :: ts => t.solid ++ solidAll ts
end

private theorem solidAll_append (ts us : List Token) :
    solidAll (ts ++ us) = solidAll ts ++ solidAll us := by
  induction ts with
  | nil => rfl
  | cons t ts ih => simp [solidAll, ih]

end Token

namespace Lexer

/-- Whether a character may stand in a text with nothing between its tokens: it is no gap, and no
comment begins with it. -/
def isSolid (c : Char) : Bool := !isGap c && c != '/'

private theorem eq_opener_of_opens {c : Char} {d : Delimiter} (h : opens c = some d) :
    c = d.opener := by
  unfold opens at h
  split at h <;> cases h <;> rfl

private theorem eq_closer_of_closes {c : Char} {d : Delimiter} (h : closes c = some d) :
    c = d.closer := by
  unfold closes at h
  split at h <;> cases h <;> rfl

section

variable {cs rest : List Char}

private theorem append_of_word? {w : Word} (h : word? cs = some (w, rest)) :
    w.written.toList ++ rest = cs := by
  unfold word? at h
  split at h
  · split at h
    · rename_i later name _ hn
      simp only at h
      split at h
      · cases h
      · cases h
        rw [← append_of_name? hn]
        simp [Word.written]
    · cases h
  · obtain ⟨⟨name, later⟩, hn, he⟩ := Option.map_eq_some_iff.mp h
    cases he
    rw [← append_of_name? hn]
    simp [Word.written, Word.plain]

theorem cons_of_mark? {c : Char} (h : mark? cs = some (c, rest)) : c :: rest = cs := by
  unfold mark? at h
  split at h
  · cases h
  · cases h
  · split at h <;> cases h
    rfl
  · cases h

private theorem append_of_markToken? {t : Token} (h : markToken? cs = some (t, rest)) :
    t.solid ++ rest = cs := by
  unfold markToken? at h
  split at h
  · cases h
  · rename_i hm
    split at h
    · cases h
    · split at h
      · cases h
      · split at h
        · cases h
          exact cons_of_mark? hm
        · cases h
      · cases h
        exact cons_of_mark? hm
  · rename_i hm
    cases h
    exact cons_of_mark? hm

/-- A token that is no group is read from its characters. -/
theorem append_of_leaf? {t : Token} (h : leaf? cs = some (t, rest)) : t.solid ++ rest = cs := by
  unfold leaf? at h
  split at h
  · rename_i hl
    cases h
    rw [Token.solid, String.toList_ofList]
    exact List.suffix_iff_eq_append.mp (suffix_of_literal? hl)
  · simp only [Option.orElse_eq_orElse, Option.orElse_eq_or, Option.or_eq_some_iff] at h
    rcases h with hm | ⟨-, hw⟩
    · exact append_of_markToken? hm
    · split at hw
      · cases hw
      · obtain ⟨⟨w, later⟩, hword, he⟩ := Option.map_eq_some_iff.mp hw
        cases he
        exact append_of_word? hword

private theorem skipGaps_of_isSolid (h : ∀ c ∈ cs, isSolid c = true) (n : Nat) :
    skipGaps n cs = cs := by
  cases n with
  | zero => rfl
  | succ n =>
    cases cs with
    | nil => rfl
    | cons c cs =>
      have hc := h c List.mem_cons_self
      simp only [isSolid, Bool.and_eq_true, Bool.not_eq_true', bne_iff_ne] at hc
      have hp : plainComment? (c :: cs) = none := by simp [plainComment?, hc.2]
      simp [skipGaps, hp, hc.1]

private theorem docComment?_of_isSolid (h : ∀ c ∈ cs, isSolid c = true) :
    docComment? cs = none := by
  cases cs with
  | nil => rfl
  | cons c cs =>
    have hc := h c List.mem_cons_self
    simp only [isSolid, Bool.and_eq_true, bne_iff_ne] at hc
    simp [docComment?, hc.2]

/-- The characters of what was read so far, the groups that are still open included. -/
def solidRead : List (Delimiter × List Token) → List Token → List Char
  | [], done => Token.solidAll done.reverse
  | (d, before) :: outer, done => solidRead outer before ++ d.opener :: Token.solidAll done.reverse

private theorem solidRead_cons (outer : List (Delimiter × List Token)) (done : List Token)
    (t : Token) :
    solidRead outer (t :: done) = solidRead outer done ++ t.solid := by
  cases outer <;> simp [solidRead, Token.solidAll_append, Token.solidAll]

private theorem solidRead_close (d : Delimiter) (outer : List (Delimiter × List Token))
    (before done : List Token) :
    solidRead outer (.group d done.reverse :: before) =
      solidRead ((d, before) :: outer) done ++ [d.closer] := by
  rw [solidRead_cons, Token.solid, solidRead]
  simp

/-- Reading goes on from what was read to the end of the text and leaves nothing out. -/
theorem solidAll_of_scanFrom {n : Nat} {outer : List (Delimiter × List Token)}
    {done ts : List Token} (hs : ∀ c ∈ cs, isSolid c = true)
    (h : scanFrom n outer done cs = some ts) :
    Token.solidAll ts = solidRead outer done ++ cs := by
  -- at every step what was read and what is left make up the text, whatever groups are open
  induction n generalizing outer done cs with
  | zero => cases h
  | succ n ih =>
    simp only [scanFrom, skipGaps_of_isSolid hs, docComment?_of_isSolid hs] at h
    cases cs with
    | nil =>
      cases outer with
      | nil =>
        cases h
        simp [solidRead]
      | cons => cases h
    | cons c cs =>
      have hrest : ∀ c ∈ cs, isSolid c = true := fun d hd => hs d (List.mem_cons_of_mem _ hd)
      simp only at h
      split at h
      · rename_i d hd
        rw [ih hrest h, solidRead, eq_opener_of_opens hd]
        simp [Token.solidAll]
      · rename_i d _ hd
        cases outer with
        | nil => cases h
        | cons top outer =>
          obtain ⟨e, before⟩ := top
          simp only at h
          split at h
          · rename_i he
            subst he
            rw [ih hrest h, solidRead_close, eq_closer_of_closes hd]
            simp
          · cases h
      · split at h
        · rename_i t rest hl
          have ha := append_of_leaf? hl
          have hr : ∀ c ∈ rest, isSolid c = true := fun d hd =>
            hs d (ha ▸ List.mem_append_right _ hd)
          rw [ih hr h, solidRead_cons, List.append_assoc, ha]
        · cases h

end

end Lexer

end Switchboard.Source
