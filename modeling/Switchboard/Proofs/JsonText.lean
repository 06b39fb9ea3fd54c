import Switchboard.Proofs.JsonReading

/-! Printed JSON is read as what was printed, unless there are numbers with a fraction in it. -/

namespace Switchboard.Json

/-! ## Numbers -/

/-- A text in front of which a number ends. -/
def Ends (cs : List Char) : Prop :=
  ∀ c rest, cs = c :: rest → c.isDigit = false ∧ c ≠ '.' ∧ c ≠ 'e' ∧ c ≠ 'E'

private theorem ends_nil : Ends [] := by simp [Ends]

private theorem ends_cons {c : Char} {cs : List Char}
    (h : c ∈ [',', ']', '\x7d']) : Ends (c :: cs) := by
  rintro c' rest he
  obtain ⟨rfl, -⟩ := List.cons.inj he
  simp only [List.mem_cons, List.not_mem_nil, or_false] at h
  rcases h with rfl | rfl | rfl <;> decide

namespace Number

/-- The first digit of a number is zero for zero only. -/
theorem exists_toDigits_eq_cons {n : Nat} (h : n ≠ 0) :
    ∃ d ds, Nat.toDigits 10 n = d :: ds ∧ d ≠ '0' := by
  induction n using Nat.strongRecOn with
  | ind n ih =>
    by_cases hn : n < 10
    · refine ⟨n.digitChar, [], Nat.toDigits_of_lt_base hn, fun he => ?_⟩
      have hd := congrArg Char.toNat he
      rw [Nat.toNat_digitChar_of_lt_ten hn, show '0'.toNat = 48 from rfl] at hd
      omega
    · obtain ⟨d, ds, he, hd⟩ := ih (n / 10) (by omega) (by omega)
      refine ⟨d, ds ++ [(n % 10).digitChar], ?_, hd⟩
      rw [Nat.toDigits_of_base_le (by decide) (by omega), he, List.cons_append]

private theorem exists_isDigit (n : Nat) :
    ∃ d ds, Nat.toDigits 10 n = d :: ds ∧ d.isDigit = true := by
  obtain ⟨d, ds, hd⟩ := List.exists_cons_of_ne_nil (Nat.toDigits_ne_nil (b := 10) (n := n))
  have hm : d ∈ Nat.toDigits 10 n := hd ▸ List.mem_cons_self
  exact ⟨d, ds, hd, Nat.isDigit_of_mem_toDigits (by decide) (by decide) hm⟩

private theorem toDigits_append_ne (n : Nat) (rest ds : List Char) :
    Nat.toDigits 10 n ++ rest ≠ '-' :: ds := by
  obtain ⟨d, ds', hd, hi⟩ := exists_isDigit n
  rw [hd]
  intro he
  rw [(List.cons.inj he).1] at hi
  exact absurd hi (by decide)

private theorem le_ofDigitChars (cs : List Char) (start : Nat) :
    start ≤ Nat.ofDigitChars 10 cs start := by
  induction cs generalizing start with
  | nil => exact Nat.le_refl _
  | cons c cs ih =>
    rw [Nat.ofDigitChars_cons]
    exact Nat.le_trans (by omega) (ih _)

/-- Digits are taken on to the last if their number fits. -/
theorem take_eq {cs : List Char} {start : Nat}
    (h : Nat.ofDigitChars 10 cs start < Nat.pow 2 64) :
    take start cs = (Nat.ofDigitChars 10 cs start, 0) := by
  induction cs generalizing start with
  | nil => rfl
  | cons c cs ih =>
    rw [Nat.ofDigitChars_cons] at h ⊢
    have hg : start * 10 + (c.toNat - 48) = 10 * start + (c.toNat - '0'.toNat) := by
      rw [Nat.mul_comm]
      rfl
    rw [take, hg, if_pos (Nat.lt_of_le_of_lt (le_ofDigitChars _ _) h), ih h]

private theorem digits_toDigits (n : Nat) {rest : List Char} (h : Ends rest) :
    digits (Nat.toDigits 10 n ++ rest) = (Nat.toDigits 10 n, rest) := by
  have hd : ∀ c ∈ Nat.toDigits 10 n, c.isDigit = true := fun c hc =>
    Nat.isDigit_of_mem_toDigits (by decide) (by decide) hc
  have hr : rest.takeWhile Char.isDigit = [] ∧ rest.dropWhile Char.isDigit = rest := by
    cases rest with
    | nil => exact ⟨rfl, rfl⟩
    | cons c rest => simp [(h c rest rfl).1]
  rw [digits, List.takeWhile_append_of_pos hd, List.dropWhile_append_of_pos hd, hr.1, hr.2,
    List.append_nil]

private theorem unsigned_toDigits (negative : Bool) {n : Nat} (hn : n < Nat.pow 2 64)
    {rest : List Char} (h : Ends rest) : unsigned negative (Nat.toDigits 10 n ++ rest) =
      if !negative then .ok (.int n, rest)
      else if 0 < n ∧ n ≤ Nat.pow 2 63 then .ok (.int (-n), rest)
      else finish negative n 0 rest := by
  have ht : take 0 (Nat.toDigits 10 n) = (n, 0) := by
    rw [take_eq] <;> rw [Nat.ofDigitChars_toDigits (by decide) (by decide)]
    exact hn
  rw [unsigned, digits_toDigits n h]
  split
  · next he => simp [Nat.toDigits_ne_nil] at he
  · next he => simp [Nat.toDigits_ne_nil] at he
  · next he =>
    by_cases hz : n = 0
    · simp [hz] at he
    · obtain ⟨d, ds, hd, hne⟩ := exists_toDigits_eq_cons hz
      simp [hd, hne] at he
  · next whole rest' _ _ _ he =>
    obtain ⟨rfl, rfl⟩ := Prod.mk.inj he
    simp only [ht]
    split
    · exact absurd rfl (h _ _ rfl).2.1
    · exact absurd rfl (h _ _ rfl).2.2.1
    · exact absurd rfl (h _ _ rfl).2.2.2
    · simp

private theorem skipExponent_eq {rest : List Char} (h : Ends rest) :
    skipExponent rest = .ok rest := by
  unfold skipExponent
  split
  all_goals first | rfl | exact absurd rfl (h _ _ rfl).2.2.1 | exact absurd rfl (h _ _ rfl).2.2.2

private theorem skipFraction_eq {rest : List Char} : Ends rest →
    (match rest with
      | '.' :: rest => skipDigits rest >>= skipExponent
      | _ => skipExponent rest) = .ok rest := by
  intro h
  split
  · exact absurd rfl (h _ _ rfl).2.1
  · exact skipExponent_eq h

private theorem skipDigits_toDigits (n : Nat) {rest : List Char} (h : Ends rest) :
    skipDigits (Nat.toDigits 10 n ++ rest) = .ok rest := by
  rw [skipDigits, digits_toDigits n h]
  split
  · next he => simp [Nat.toDigits_ne_nil] at he
  · next he => exact congrArg _ (Prod.mk.inj he).2.symm

private theorem skip_toDigits (n : Nat) {rest : List Char} (h : Ends rest) {cs : List Char}
    (hc : cs = Nat.toDigits 10 n ++ rest ∨ cs = '-' :: (Nat.toDigits 10 n ++ rest)) :
    skip cs = .ok rest := by
  have hs : skip cs = skip ('-' :: (Nat.toDigits 10 n ++ rest)) := by
    rcases hc with rfl | rfl
    · have hm := toDigits_append_ne n rest
      unfold skip
      simp only
    · rfl
  rw [hs]
  by_cases hz : n = 0
  · subst hz
    have hh : rest.head?.any Char.isDigit = false := by
      cases rest with
      | nil => rfl
      | cons c rest => exact (h c rest rfl).1
    simp only [Nat.toDigits_zero, List.cons_append, List.nil_append, skip, hh]
    exact skipFraction_eq h
  · obtain ⟨d, ds, hd, hne⟩ := exists_toDigits_eq_cons hz
    have hw := skipDigits_toDigits n h
    rw [hd, List.cons_append] at hw ⊢
    have hm : ∀ ds', d :: (ds ++ rest) ≠ '0' :: ds' := fun ds' he => hne (List.cons.inj he).1
    simp only [skip, hw]
    exact skipFraction_eq h

/-- The written form of a whole number. -/
theorem toList_toString (n : Int) :
    (toString n).toList = (if n < 0 then ['-'] else []) ++ Nat.toDigits 10 n.natAbs := by
  cases n with
  | ofNat n => exact Nat.toList_repr
  | negSucc n =>
    show ("-" ++ Nat.repr (n + 1)).toList = _
    rw [String.toList_append, Nat.toList_repr, if_pos (Int.negSucc_lt_zero n), Int.natAbs_negSucc]
    rfl

/-- A written whole number is read as the number, if it is one that is kept exactly. -/
theorem read_toString {n : Int} (hn : keepsInt n = true) {rest : List Char} (h : Ends rest) :
    read ((toString n).toList ++ rest) = .ok (.int n, rest) ∧
      skip ((toString n).toList ++ rest) = .ok rest := by
  have hb : Bounds.signedLeast ≤ n ∧ n ≤ Bounds.unsignedGreatest := by
    simpa [keepsInt] using hn
  rw [Bounds.signedLeast, Bounds.unsignedGreatest] at hb
  have hu : n.natAbs < Nat.pow 2 64 := by
    show n.natAbs < 18446744073709551616
    omega
  rw [toList_toString]
  by_cases h0 : n < 0
  · have hp : 0 < n.natAbs ∧ n.natAbs ≤ Nat.pow 2 63 := by
      show 0 < n.natAbs ∧ n.natAbs ≤ 9223372036854775808
      omega
    have hd := unsigned_toDigits true hu h
    rw [if_neg (by decide), if_pos hp, show -(n.natAbs : Int) = n by omega] at hd
    rw [if_pos h0]
    exact ⟨hd, skip_toDigits _ h (.inr rfl)⟩
  · have hd := unsigned_toDigits false hu h
    rw [if_pos (by decide), show (n.natAbs : Int) = n by omega] at hd
    have hm := toDigits_append_ne n.natAbs rest
    rw [if_neg h0, List.nil_append]
    exact ⟨by simpa only [read] using hd, skip_toDigits _ h (.inl rfl)⟩

end Number

namespace Scan

/-! ## Texts -/

private theorem hexValue_digitChar : ∀ d < 16, hexValue (Nat.digitChar d) = some d := by decide

/-- The code of a control character is read as its number. -/
theorem fourHex_controlCode {n : Nat} (h : n < 32) (rest : List Char) :
    ∃ code, controlCode n ++ rest = '\\' :: 'u' :: code ∧ fourHex code = .ok (n, rest) := by
  have hd : Nat.toDigits 16 (n % 16) = [(n % 16).digitChar] :=
    Nat.toDigits_of_lt_base (Nat.mod_lt n (by decide))
  have hl := hexValue_digitChar (n % 16) (Nat.mod_lt n (by decide))
  have hz : hexValue '0' = some 0 := rfl
  refine ⟨_, by rw [controlCode, hd]; rfl, ?_⟩
  by_cases hn : n < 16
  · simp [fourHex, hn, hl, hz]
  · have ho : hexValue '1' = some 1 := rfl
    simp [fourHex, hn, hl, hz, ho]
    omega

/-- One written character is read in front of others. -/
theorem text_escape (n : Nat) (c : Char) (rest : List Char) :
    text (n + 1) (escape c ++ rest) = (text n rest).map (c :: ·) ∧
      afterText (n + 1) (escape c ++ rest) = afterText n rest := by
  unfold escape
  split
  all_goals try simp [text, afterText, letterEscape]
  split
  · next h =>
    obtain ⟨code, hc, hf⟩ := fourHex_controlCode h rest
    have hcode : codeEscape code = .ok (c, rest) := by
      rw [codeEscape, hf]
      simp only
      rw [if_neg (by omega), if_neg (by omega), Char.ofNat_toNat]
    rw [hc]
    simp [text, afterText, hcode, hf]
  · next hq hb _ _ _ _ _ h =>
    rw [List.singleton_append, text, afterText, if_neg h, if_neg h]
    · exact ⟨rfl, rfl⟩
    all_goals
      intros
      simp_all

private theorem text_escaped (cs rest : List Char) {n : Nat} (h : cs.length < n) :
    text n (cs.flatMap escape ++ '"' :: rest) = .ok cs ∧
      afterText n (cs.flatMap escape ++ '"' :: rest) = .ok rest := by
  induction cs generalizing n with
  | nil =>
    obtain ⟨n, rfl⟩ := Nat.exists_eq_succ_of_ne_zero (Nat.ne_of_gt h)
    simp [text, afterText]
  | cons c cs ih =>
    obtain ⟨n, rfl⟩ := Nat.exists_eq_succ_of_ne_zero (Nat.ne_of_gt (Nat.zero_lt_of_lt h))
    obtain ⟨ht, ha⟩ := ih (n := n) (Nat.lt_of_succ_lt_succ h)
    obtain ⟨hc, hr⟩ := text_escape n c (cs.flatMap escape ++ '"' :: rest)
    rw [List.flatMap_cons, List.append_assoc, hc, hr, ht, ha]
    exact ⟨rfl, rfl⟩

private theorem length_le_escaped (cs : List Char) : cs.length ≤ (cs.flatMap escape).length := by
  induction cs with
  | nil => exact Nat.le_refl _
  | cons c cs ih =>
    have hc : (escape c).length ≠ 0 := by
      unfold escape
      split
      all_goals try decide
      split <;> simp [controlCode]
    rw [List.flatMap_cons, List.length_append, List.length_cons]
    omega

/-- A quoted text is read as the text. -/
theorem quoted_quote (s : String) (rest : List Char) :
    ∃ cs, quote s ++ rest = '"' :: cs ∧ quoted cs = (.string (.ok s), .ok rest) := by
  refine ⟨s.toList.flatMap escape ++ '"' :: rest, by simp [quote], ?_⟩
  have hl := length_le_escaped s.toList
  obtain ⟨ht, ha⟩ := text_escaped s.toList rest
    (n := (s.toList.flatMap escape ++ '"' :: rest).length)
    (by rw [List.length_append, List.length_cons]; omega)
  rw [quoted, ht, ha]
  simp [Except.map]

end Scan

/-! ## Values -/

/-- A value with whole numbers only, each of which is kept exactly. -/
inductive Whole : Json → Prop
  | null : Whole .null
  | bool (b : Bool) : Whole (.bool b)
  | int (n : Int) (h : keepsInt n = true) : Whole (.int n)
  | string (s : String) : Whole (.string s)
  | array (items : List Json) (h : ∀ j ∈ items, Whole j) : Whole (.array items)
  | object (entries : List (String × Json)) (h : ∀ e ∈ entries, Whole e.2) :
    Whole (.object entries)

theorem whole_strings (texts : List String) : Whole (.strings texts) := by
  refine .array _ fun j hj => ?_
  obtain ⟨s, -, rfl⟩ := List.mem_map.mp hj
  exact .string s

namespace Scan

/-- That the written form of a value is read as the value, in front of all that ends a number. Three
steps are counted for each character: brackets take three, an item after another two. -/
def Recovers (j : Json) : Prop :=
  ∀ n rest, 3 * j.printChars.length ≤ n → Ends rest →
    value n (j.printChars ++ rest) = (.ofJson j, .ok rest)

/-- A text that does not begin with a blank or the end of a list. -/
def Opens (cs : List Char) : Prop := ∃ c rest, cs = c :: rest ∧ isSpace c = false ∧ c ≠ ']'

/-- That a character is the first of some number. -/
def Leads (c : Char) : Prop := (c == '-' || c.isDigit) = true

private theorem Leads.ne {c d : Char} (hc : Leads c) (hd : (d == '-' || d.isDigit) = false) :
    c ≠ d := by
  rintro rfl
  exact absurd (hc.symm.trans hd) (by decide)

private theorem Leads.isSpace_eq {c : Char} (h : Leads c) : isSpace c = false := by
  simp [isSpace, h.ne (d := ' ') rfl, h.ne (d := '\n') rfl, h.ne (d := '\t') rfl,
    h.ne (d := '\r') rfl]

private theorem token_cons {c : Char} (h : isSpace c = false) (cs : List Char) :
    token (c :: cs) = c :: cs := by
  rw [token, List.dropWhile_cons, h]
  rfl

private theorem exists_leads (n : Int) : ∃ c cs, (Json.int n).printChars = c :: cs ∧ Leads c := by
  rw [printChars, Number.toList_toString]
  split
  · exact ⟨_, _, rfl, rfl⟩
  · obtain ⟨d, ds, hd, hi⟩ := Number.exists_isDigit n.natAbs
    exact ⟨d, ds, hd, by simp [Leads, hi]⟩

private theorem opens_printChars {j : Json} (h : Whole j) : Opens j.printChars := by
  cases h with
  | null => exact ⟨_, _, rfl, by decide⟩
  | bool b => cases b <;> exact ⟨_, _, rfl, by decide⟩
  | int n =>
    obtain ⟨c, cs, he, hc⟩ := exists_leads n
    exact ⟨c, cs, he, hc.isSpace_eq, hc.ne rfl⟩
  | string s => exact ⟨_, _, rfl, by decide⟩
  | array items h => exact ⟨_, _, rfl, by decide⟩
  | object entries h => exact ⟨_, _, rfl, by decide⟩

private theorem value_number {c : Char} (h : Leads c) (n : Nat) (cs : List Char) :
    value (n + 1) (c :: cs) =
      (.number ((Number.read (c :: cs)).map Prod.fst), Number.skip (c :: cs)) := by
  rw [value, token_cons h.isSpace_eq]
  split
  · contradiction
  all_goals next he => first
    | exact absurd (List.cons.inj he).1 (h.ne rfl)
    | obtain ⟨rfl, rfl⟩ := List.cons.inj he
      exact if_pos h

private theorem recovers_int {n : Int} (h : keepsInt n = true) : Recovers (.int n) := by
  rintro k rest hk hr
  obtain ⟨c, cs, he, hc⟩ := exists_leads n
  obtain ⟨k, rfl⟩ := Nat.exists_eq_succ_of_ne_zero
    (show k ≠ 0 by rw [he, List.length_cons] at hk; omega)
  obtain ⟨hread, hskip⟩ := Number.read_toString h hr
  rw [he, List.cons_append, value_number hc, ← List.cons_append, ← he, printChars, hread, hskip]
  rfl

private theorem recovers_string (s : String) : Recovers (.string s) := by
  rintro n rest hn -
  obtain ⟨cs, hc, hq⟩ := quoted_quote s rest
  obtain ⟨n, rfl⟩ := Nat.exists_eq_succ_of_ne_zero
    (show n ≠ 0 by rw [printChars, quote, List.length_append, List.length_cons] at hn; omega)
  rw [printChars, hc, value, token_cons rfl]
  exact hq

private theorem Opens.append {cs : List Char} (h : Opens cs) (rest : List Char) :
    Opens (cs ++ rest) := by
  obtain ⟨c, cs, rfl, hc⟩ := h
  exact ⟨c, cs ++ rest, rfl, hc⟩

private theorem items_close (n : Nat) (first : Bool) (rest : List Char) :
    items (n + 1) first (']' :: rest) = ([], .closed, .ok rest) := by
  unfold items
  rw [token_cons rfl]
  rfl

private theorem items_first {cs : List Char} (h : Opens cs) (n : Nat) :
    items (n + 1) true cs = item n cs := by
  obtain ⟨c, cs, rfl, hs, hc⟩ := h
  unfold items
  rw [token_cons hs]
  split
  all_goals simp_all

private theorem items_comma {cs : List Char} (h : Opens cs) (n : Nat) :
    items (n + 1) false (',' :: cs) = item n cs := by
  obtain ⟨c, cs, rfl, hs, hc⟩ := h
  unfold items
  rw [token_cons rfl]
  simp only [token_cons hs]
  split <;> simp_all

private theorem printItems_cons (j k : Json) (js : List Json) :
    printItems (j :: k :: js) = j.printChars ++ ',' :: printItems (k :: js) := by
  rw [printItems]
  simp

private theorem opens_printItems {j : Json} (h : Opens j.printChars) (js : List Json) :
    Opens (printItems (j :: js)) := by
  cases js with
  | nil => rwa [printItems]
  | cons k js =>
    rw [printItems_cons]
    exact h.append _

private theorem item_printItems {j : Json} {js : List Json}
    (h : ∀ k ∈ j :: js, Recovers k ∧ Opens k.printChars) (rest : List Char) {n : Nat}
    (hn : 3 * (printItems (j :: js)).length + 2 ≤ n) :
    item n (printItems (j :: js) ++ ']' :: rest) = (Tree.ofItems (j :: js), .closed, .ok rest) := by
  induction js generalizing j n with
  | nil =>
    obtain ⟨n, rfl⟩ : ∃ m, n = m + 2 := ⟨n - 2, by omega⟩
    rw [printItems] at hn ⊢
    rw [item, (h j List.mem_cons_self).1 _ _ (by omega) (ends_cons (by simp))]
    simp only [items_close]
    rfl
  | cons k js ih =>
    obtain ⟨n, rfl⟩ : ∃ m, n = m + 2 := ⟨n - 2, by omega⟩
    have hc : Ends (',' :: (printItems (k :: js) ++ ']' :: rest)) := ends_cons (by simp)
    have ht : ∀ l ∈ k :: js, Recovers l ∧ Opens l.printChars := fun l hl =>
      h l (List.mem_cons_of_mem j hl)
    rw [printItems_cons, List.length_append, List.length_cons] at hn
    rw [printItems_cons, List.append_assoc, List.cons_append, item,
      (h j List.mem_cons_self).1 _ _ (by omega) hc]
    simp only
    rw [items_comma ((opens_printItems (ht k List.mem_cons_self).2 js).append _),
      ih ht (by omega)]
    rfl

private theorem recovers_array {items : List Json}
    (h : ∀ j ∈ items, Recovers j ∧ Opens j.printChars) :
    Recovers (.array items) := by
  rintro n rest hn -
  rw [printChars, List.length_append, List.length_cons, List.length_singleton] at hn
  obtain ⟨n, rfl⟩ : ∃ m, n = m + 3 := ⟨n - 3, by omega⟩
  rw [printChars, List.cons_append, List.cons_append, List.append_assoc, List.singleton_append,
    value, token_cons rfl]
  simp only
  cases items with
  | nil =>
    rw [printItems, List.nil_append, items_close]
    rfl
  | cons j js =>
    rw [items_first ((opens_printItems (h j List.mem_cons_self).2 js).append _),
      item_printItems h rest (by omega)]
    rfl

private theorem entries_close (n : Nat) (first : Bool) (rest : List Char) :
    entries (n + 1) first ('\x7d' :: rest) = ([], .closed, .ok rest) := by
  unfold entries
  rw [token_cons rfl]
  rfl

private theorem entries_first (n : Nat) (cs : List Char) :
    entries (n + 1) true ('"' :: cs) = entry n ('"' :: cs) := by
  unfold entries
  rw [token_cons rfl]
  rfl

private theorem entries_comma (n : Nat) (cs : List Char) :
    entries (n + 1) false (',' :: '"' :: cs) = entry n ('"' :: cs) := by
  unfold entries
  rw [token_cons rfl]
  simp only [token_cons (c := '"') rfl]
  rfl

private theorem entry_printed (k : String) {j : Json} (hj : Recovers j) {rest : List Char}
    (hr : Ends rest) {n : Nat} (hn : 3 * j.printChars.length ≤ n) :
    entry (n + 1) (quote k ++ ':' :: (j.printChars ++ rest)) =
      let (later, ending, after) := entries n false rest
      ((.string (.ok k), .ofJson j) :: later, ending, after) := by
  obtain ⟨cs, hc, hq⟩ := quoted_quote k (':' :: (j.printChars ++ rest))
  rw [hc, entry]
  simp only [hq, token_cons (c := ':') rfl, hj n rest hn hr]

private theorem printEntries_cons (k l : String) (j i : Json) (es : List (String × Json)) :
    printEntries ((k, j) :: (l, i) :: es) =
      quote k ++ ':' :: (j.printChars ++ ',' :: printEntries ((l, i) :: es)) := by
  rw [printEntries]
  · simp
  · simp

private theorem exists_printEntries (k : String) (j : Json) (es : List (String × Json)) :
    ∃ cs, printEntries ((k, j) :: es) = '"' :: cs := by
  cases es with
  | nil => exact ⟨_, by rw [printEntries, quote]; rfl⟩
  | cons e es => exact ⟨_, by rw [printEntries_cons, quote]; rfl⟩

private theorem entry_printEntries {k : String} {j : Json} {es : List (String × Json)}
    (h : ∀ e ∈ (k, j) :: es, Recovers e.2) (rest : List Char) {n : Nat}
    (hn : 3 * (printEntries ((k, j) :: es)).length + 2 ≤ n) :
    entry n (printEntries ((k, j) :: es) ++ '\x7d' :: rest) =
      (Tree.ofEntries ((k, j) :: es), .closed, .ok rest) := by
  have hj : Recovers j := h (k, j) List.mem_cons_self
  induction es generalizing k j n with
  | nil =>
    obtain ⟨n, rfl⟩ : ∃ m, n = m + 2 := ⟨n - 2, by omega⟩
    rw [printEntries, List.length_append, List.length_cons] at hn
    rw [printEntries, List.append_assoc, List.cons_append,
      entry_printed k hj (ends_cons (by simp)) (by omega)]
    simp only [entries_close]
    rfl
  | cons e es ih =>
    obtain ⟨l, i⟩ := e
    obtain ⟨n, rfl⟩ : ∃ m, n = m + 2 := ⟨n - 2, by omega⟩
    have ht : ∀ e ∈ (l, i) :: es, Recovers e.2 := fun e he => h e (List.mem_cons_of_mem _ he)
    obtain ⟨cs, hc⟩ := exists_printEntries l i es
    rw [printEntries_cons, List.length_append, List.length_cons, List.length_append,
      List.length_cons] at hn
    rw [printEntries_cons, List.append_assoc, List.cons_append, List.append_assoc,
      List.cons_append, entry_printed k hj (ends_cons (by simp)) (by omega), hc, List.cons_append,
      entries_comma, ← List.cons_append, ← hc, ih ht (by omega) (ht _ List.mem_cons_self)]
    rfl

private theorem recovers_object {entries : List (String × Json)} (h : ∀ e ∈ entries, Recovers e.2) :
    Recovers (.object entries) := by
  rintro n rest hn -
  rw [printChars, List.length_append, List.length_cons, List.length_singleton] at hn
  obtain ⟨n, rfl⟩ : ∃ m, n = m + 3 := ⟨n - 3, by omega⟩
  rw [printChars, List.cons_append, List.cons_append, List.append_assoc, List.singleton_append,
    value, token_cons rfl]
  simp only
  cases entries with
  | nil =>
    rw [printEntries, List.nil_append, entries_close]
    rfl
  | cons e es =>
    obtain ⟨k, j⟩ := e
    obtain ⟨cs, hc⟩ := exists_printEntries k j es
    rw [hc, List.cons_append, entries_first, ← List.cons_append, ← hc,
      entry_printEntries h rest (by omega)]
    rfl

private theorem spelled_append (letters : List Char) (t : Tree) (rest : List Char) :
    spelled letters t (letters ++ rest) = (t, .ok rest) := by
  induction letters with
  | nil => rfl
  | cons l letters ih => rw [List.cons_append, spelled, if_pos rfl, ih]

private theorem recovers_spelled {j : Json} {c : Char} {letters : List Char}
    (hp : j.printChars = c :: letters)
    (hv : ∀ n cs, value (n + 1) (c :: cs) = spelled letters (.ofJson j) cs) : Recovers j := by
  rintro n rest hn -
  rw [hp, List.length_cons] at hn
  obtain ⟨n, rfl⟩ := Nat.exists_eq_succ_of_ne_zero (show n ≠ 0 by omega)
  rw [hp, List.cons_append, hv, spelled_append]

/-- The written form of every value with whole numbers is read as the value. -/
theorem recovers {j : Json} (h : Whole j) : Recovers j := by
  induction h with
  | null => exact recovers_spelled rfl fun n cs => by rw [value, token_cons rfl]; rfl
  | bool b =>
    cases b with
    | false => exact recovers_spelled rfl fun n cs => by rw [value, token_cons rfl]; rfl
    | true => exact recovers_spelled rfl fun n cs => by rw [value, token_cons rfl]; rfl
  | int n h => exact recovers_int h
  | string s => exact recovers_string s
  | array items h ih => exact recovers_array fun j hj => ⟨ih j hj, opens_printChars (h j hj)⟩
  | object entries h ih => exact recovers_object ih

end Scan

/-- A printed value is read as the value. -/
theorem Document.ofText_print {j : Json} (h : Whole j) :
    Document.ofText (print j) = ⟨.ofJson j, .closed⟩ := by
  have hv := Scan.recovers h (3 * j.printChars.length + 3) [] (by omega) ends_nil
  rw [List.append_nil] at hv
  rw [Document.ofText, print, String.toList_ofList]
  simp only [hv]
  rfl

namespace Reader

/-- Reading a text that is printed is reading the value in it. -/
theorem ofText_print {α : Type} {read : Reader α} {j : Json} {a : α} (h : Reads read j a)
    (hw : Whole j) : read.ofText (print j) = .ok a := by
  rw [ofText, Document.ofText_print hw]
  simp only [h .text]
  rfl

end Reader

end Switchboard.Json
