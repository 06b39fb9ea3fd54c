import Mathlib.Data.Bool.AllAny
import Switchboard.Proofs.Quoting
import Switchboard.Proofs.SolidText

/-! Literals in front of a break. A token that is not joint is written with a blank, a line end or
the closing of a group after it, and there every literal that is emitted ends: the text in quotes
that stands for a given text, a raw text, and the digits of a number. -/

namespace Switchboard.Source

open Text

namespace Lexer

/-- What stands after a token that is not joint: a blank, a line end or the closing of a group. -/
def breaks : List Char := [' ', '\n', ')', ']', '\x7d']

/-- Whether a token that is not joint ends before a text. -/
def isBreak : List Char → Bool
  | [] => true
  | c :: _ => breaks.contains c

section

variable {cs rest : List Char}

theorem mem_breaks {c : Char} (h : isBreak (c :: rest) = true) : c ∈ breaks := by
  simpa [isBreak] using h

theorem not_isContinue_of_isBreak {c : Char} (h : isBreak (c :: rest) = true) :
    Identifier.isContinue c = false := by
  have hall : ∀ d ∈ breaks, Identifier.isContinue d = false :=
    List.all_iff_forall_prop.mp (by decide)
  exact hall c (mem_breaks h)

private theorem afterSuffix_of_isBreak (h : isBreak rest = true) : afterSuffix rest = rest := by
  cases rest with
  | nil => rfl
  | cons c rest =>
    have hs : Identifier.isStart c = false := by
      cases hc : Identifier.isStart c with
      | false => rfl
      | true =>
        have := Identifier.isContinue_of_isStart hc
        rw [not_isContinue_of_isBreak h] at this
        cases this
    simp [afterSuffix, name?, hs]

private theorem afterContinuation_append (h : afterContinuation cs = some rest) (more : List Char) :
    afterContinuation (cs ++ more) = some (rest ++ more) := by
  fun_induction afterContinuation cs
  case case1 ih => simp [afterContinuation, ih h]
  case case2 => cases h
  case case3 hc ih => simp_all [afterContinuation]
  case case4 c later hr hc =>
    cases h
    simp_all [afterContinuation]
  case case5 => cases h

private theorem codePoint_append {value digits n : Nat}
    (h : codePoint value digits cs = some (n, rest))
    (more : List Char) : codePoint value digits (cs ++ more) = some (n, rest ++ more) := by
  fun_induction codePoint value digits cs <;> simp_all [codePoint]

private theorem afterEscape_of_escaped? {c : Char} (h : escaped? cs = some (c, rest))
    (more : List Char) :
    afterEscape .text (cs ++ more) = some (rest ++ more) := by
  unfold escaped? at h
  split at h
  all_goals try cases h
  all_goals try rfl
  · split at h
    · rename_i hx
      cases h
      simpa [afterEscape, and_assoc] using hx
    · cases h
  · split at h
    · rename_i hc
      split at h
      · cases h
        simp [afterEscape, codePoint_append hc, *]
      · cases h
    · cases h

/-- A literal in double quotes that stands for a text is read up to its closing quote. -/
theorem afterQuoted_of_quoted? {n m : Nat} {s : List Char} (h : Source.quoted? n cs = some s)
    (hr : isBreak rest = true) (hn : n ≤ m) : afterQuoted .text m (cs ++ rest) = some rest := by
  induction n generalizing m cs s with
  | zero => cases h
  | succ n ih =>
    obtain ⟨m, rfl⟩ := Nat.exists_eq_succ_of_ne_zero (by omega : m ≠ 0)
    have hm : n ≤ m := by omega
    unfold Source.quoted? at h
    split at h
    · cases h
    · cases h
    · split at h
      · rename_i he
        obtain rfl := List.isEmpty_iff.mp he
        simp [afterQuoted, afterSuffix_of_isBreak hr]
      · cases h
    · cases ‹n + 1 = _›
      obtain ⟨t, ht, -⟩ := Option.map_eq_some_iff.mp h
      simpa [afterQuoted] using ih ht hm
    · cases h
    · cases ‹n + 1 = _›
      obtain ⟨later, hl, hs⟩ := Option.bind_eq_some_iff.mp h
      have hmore := afterContinuation_append hl rest
      simpa [afterQuoted, afterContinuation, hmore] using ih hs hm
    · cases ‹n + 1 = _›
      obtain ⟨later, hl, hs⟩ := Option.bind_eq_some_iff.mp h
      have hmore := afterContinuation_append hl rest
      simpa [afterQuoted, afterContinuation, hmore] using ih hs hm
    · rename_i later hline _ _
      cases ‹n + 1 = _›
      split at h
      · rename_i he
        obtain ⟨t, ht, -⟩ := Option.map_eq_some_iff.mp h
        have hmore := afterEscape_of_escaped? he rest
        cases later with
        | nil => cases he
        | cons d later =>
          have hl : d ≠ '\n' := fun hd => hline later (hd ▸ rfl)
          have hc : d ≠ '\r' := by
            rintro rfl
            cases he
          rw [List.cons_append] at hmore
          simpa [afterQuoted, hl, hc, hmore] using ih ht hm
      · cases h
    · cases ‹n + 1 = _›
      obtain ⟨t, ht, -⟩ := Option.map_eq_some_iff.mp h
      have hrest := ih ht hm
      simp_all [afterQuoted]

/-- A text that is read as one literal where a break follows. -/
structure IsLiteral (text : String) : Prop where
  begins : ∃ c cs, text.toList = c :: cs ∧ (c = '"' ∨ Identifier.isContinue c = true)
  read : ∀ rest, isBreak rest = true → literal? (text.toList ++ rest) = some rest

theorem isLiteral_source (s : String) : IsLiteral (Quoted.source s) := by
  have hl : (Quoted.source s).toList = '"' :: (Quoted.sourceBody s.toList ++ ['"']) := by
    simp [Quoted.source]
  have hv := stringValue?_source s
  rw [stringValue?, hl] at hv
  obtain ⟨t, ht, -⟩ := Option.map_eq_some_iff.mp hv
  refine ⟨⟨_, _, hl, .inl rfl⟩, fun rest hr => ?_⟩
  have hq := afterQuoted_of_quoted? ht hr
    (m := (Quoted.sourceBody s.toList ++ ['"'] ++ rest).length + 1) (by simp)
  rw [hl, List.cons_append, literal?, Lexer.quoted?, hq]
  rfl

private theorem afterRaw_append {cs : List Char} (hc : ∀ c ∈ cs, c ≠ '"' ∧ c ≠ '\r')
    (hr : isBreak rest = true) : afterRaw .text 0 (cs ++ '"' :: rest) = some rest := by
  induction cs with
  | nil => simp [afterRaw, hashes, afterSuffix_of_isBreak hr]
  | cons c cs ih =>
    obtain ⟨⟨hq, hl⟩, hcs⟩ := List.forall_mem_cons.mp hc
    simp [afterRaw, hashes, hq, hl, ih hcs]

/-- A raw literal without a quote or a carriage return in it. -/
theorem isLiteral_raw {text : String} (h : ∀ c ∈ text.toList, c ≠ '"' ∧ c ≠ '\r') :
    IsLiteral ("r\"" ++ text ++ "\"") := by
  have hl : ("r\"" ++ text ++ "\"").toList = 'r' :: '"' :: (text.toList ++ ['"']) := by simp
  refine ⟨⟨_, _, hl, .inr (by decide)⟩, fun rest hr => ?_⟩
  have ha := afterRaw_append h hr
  have hq : raw? .text ('"' :: (text.toList ++ '"' :: rest)) = some rest := by simp [raw?, ha]
  rw [hl]
  simp [literal?, Lexer.quoted?, hq]

/-- The beginning of a break, as far as numbers look at it. -/
theorem numberEnds_of_isBreak {c : Char} (h : isBreak (c :: rest) = true) :
    isDigitOrGap c = false ∧ isHex c = false ∧ c ∉ ['.', 'e', 'E', 'x', 'o', 'b', '_'] := by
  have hall : ∀ d ∈ breaks,
      isDigitOrGap d = false ∧ isHex d = false ∧ d ∉ ['.', 'e', 'E', 'x', 'o', 'b', '_'] :=
    List.all_iff_forall_prop.mp (by decide)
  exact hall c (mem_breaks h)

private theorem dropWhile_of_isBreak (hr : isBreak rest = true) :
    rest.dropWhile isDigitOrGap = rest := by
  cases rest with
  | nil => rfl
  | cons c rest => rw [List.dropWhile_cons_of_neg (by simp [(numberEnds_of_isBreak hr).1])]

theorem mem_digits {c : Char} (h : c.isDigit = true) : c ∈ "0123456789".toList := by
  have hc : 48 ≤ c.toNat ∧ c.toNat ≤ 57 := by
    simpa [Char.isDigit, UInt32.le_iff_toNat_le] using h
  have hall : ∀ n ∈ List.range' 48 10, Char.ofNat n ∈ "0123456789".toList := by decide
  rw [← Char.ofNat_toNat c]
  exact hall _ (List.mem_range'_1.mpr (by omega))

/-- A digit, as far as literals look at it. -/
theorem digit_of_isDigit {c : Char} (h : c.isDigit = true) :
    hexValue c < 10 ∧ isDigitOrGap c = true ∧ Identifier.isContinue c = true ∧
      c ∉ ['"', '\'', 'r', 'b', 'c', 'x', 'o'] := by
  have hall : ∀ d ∈ "0123456789".toList, hexValue d < 10 ∧ isDigitOrGap d = true ∧
      Identifier.isContinue d = true ∧ d ∉ ['"', '\'', 'r', 'b', 'c', 'x', 'o'] :=
    List.all_iff_forall_prop.mp (by decide)
  exact hall c (mem_digits h)

/-- What follows the digits of a whole number is left. -/
theorem afterDigits_append {ds : List Char} {empty : Bool} (hd : ∀ c ∈ ds, c.isDigit = true)
    (hr : isBreak rest = true) (he : ds = [] → empty = false) :
    afterDigits 10 empty (ds ++ rest) = some rest := by
  induction ds generalizing empty with
  | nil =>
    obtain rfl := he rfl
    cases rest with
    | nil => rfl
    | cons c rest =>
      obtain ⟨hd, hx, hm⟩ := numberEnds_of_isBreak hr
      simp only [isDigitOrGap, Bool.or_eq_false_iff] at hd
      simp [afterDigits, hd.1, hx, hd.2]
  | cons c ds ih =>
    obtain ⟨hc, hds⟩ := List.forall_mem_cons.mp hd
    have hv := (digit_of_isDigit hc).1
    rw [List.cons_append, afterDigits, if_pos hc, if_neg (by omega)]
    exact ih hds fun _ => rfl

section

variable {d : Char} {ds : List Char} (hd : d.isDigit = true) (hds : ∀ c ∈ ds, c.isDigit = true)
  (hr : isBreak rest = true)

include hd hds hr

private theorem number?_floatDigits : number? afterFloatDigits (d :: (ds ++ rest)) = none := by
  have hdrop : (ds ++ rest).dropWhile isDigitOrGap = rest := by
    rw [List.dropWhile_append_of_pos fun c hc => (digit_of_isDigit (hds c hc)).2.1,
      dropWhile_of_isBreak hr]
  cases rest with
  | nil =>
    rw [List.append_nil] at hdrop
    simp [number?, afterFloatDigits, hd, hdrop]
  | cons c rest =>
    obtain ⟨-, -, hc⟩ := numberEnds_of_isBreak hr
    simp only [List.mem_cons, not_or] at hc
    simp [number?, afterFloatDigits, hd, hdrop, hc]

private theorem afterIntDigits_append : afterIntDigits (d :: (ds ++ rest)) = some rest := by
  have hbase : ∀ c more, ds ++ rest = c :: more → c ∉ ['x', 'o', 'b'] := by
    intro c more he
    cases ds with
    | cons e ds =>
      cases he
      have hc := (digit_of_isDigit (hds c List.mem_cons_self)).2.2.2
      simp_all
    | nil =>
      obtain rfl : rest = c :: more := he
      have hc := (numberEnds_of_isBreak hr).2.2
      simp_all
  have hall : afterDigits 10 true (d :: ds ++ rest) = some rest :=
    afterDigits_append (List.forall_mem_cons.mpr ⟨hd, hds⟩) hr (by simp)
  rw [afterIntDigits]
  · exact hall
  all_goals
    intro more he
    exact absurd (hbase _ _ (List.cons.inj he).2) (by simp)

private theorem number?_intDigits : number? afterIntDigits (d :: (ds ++ rest)) = some rest := by
  rw [number?, afterIntDigits_append hd hds hr]
  dsimp only
  rw [afterSuffix_of_isBreak hr]
  cases rest with
  | nil => rfl
  | cons c rest => simp [not_isContinue_of_isBreak hr]

end

/-- The digits of a number are one literal. -/
theorem isLiteral_digits (n : Nat) : IsLiteral (toString n) := by
  have hl : (toString n).toList = Nat.toDigits 10 n := by simp
  have hd : ∀ c ∈ Nat.toDigits 10 n, c.isDigit = true := fun c hc =>
    Nat.isDigit_of_mem_toDigits (by decide) (by decide) hc
  obtain ⟨d, ds, hds⟩ := List.exists_cons_of_ne_nil (Nat.toDigits_ne_nil (b := 10) (n := n))
  rw [hds] at hl hd
  obtain ⟨hfirst, hmore⟩ := List.forall_mem_cons.mp hd
  obtain ⟨-, -, hcontinue, hchars⟩ := digit_of_isDigit hfirst
  refine ⟨⟨d, ds, hl, .inr hcontinue⟩, fun rest hr => ?_⟩
  simp only [List.mem_cons, not_or] at hchars
  rw [hl, List.cons_append, literal?, number?_floatDigits hfirst hmore hr,
    number?_intDigits hfirst hmore hr]
  simp [Lexer.quoted?, character?, hchars]

end

end Lexer

end Switchboard.Source
