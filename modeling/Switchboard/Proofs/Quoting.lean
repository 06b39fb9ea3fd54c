import Switchboard.Source.Lexer.Literal
import Switchboard.Text.Quoted

/-! Quoting. A string literal stands for a text by the rules for its escapes, and the one that a text
is written as stands for that text, whatever characters are in it. -/

namespace Switchboard.Source

open Lexer (isHex hexValue codePoint isScalar afterContinuation)
open Text (Quoted.byCode Quoted.escape Quoted.sourceBody)

/-- The character of an escape whose backslash has been read, and what is left. -/
def escaped? : List Char → Option (Char × List Char)
  | 'n' :: rest => some ('\n', rest)
  | 'r' :: rest => some ('\r', rest)
  | 't' :: rest => some ('\t', rest)
  | '0' :: rest => some ('\x00', rest)
  | '\\' :: rest => some ('\\', rest)
  | '\'' :: rest => some ('\'', rest)
  | '"' :: rest => some ('"', rest)
  | 'x' :: a :: b :: rest =>
    if '0' ≤ a && a ≤ '7' && isHex b then some (.ofNat (hexValue a * 16 + hexValue b), rest)
    else none
  | 'u' :: '\x7b' :: rest =>
    match codePoint 0 0 rest with
    | some (n, rest) => if isScalar n then some (.ofNat n, rest) else none
    | none => none
  | _ => none

/-- The characters up to the closing quote, which must be the end. A backslash before a line end
leaves that out with the blanks after it. The count bounds the characters read. -/
def quoted? : Nat → List Char → Option (List Char)
  | 0, _ | _, [] => none
  | _ + 1, '"' :: rest => if rest.isEmpty then some [] else none
  | fuel + 1, '\r' :: '\n' :: rest => (quoted? fuel rest).map ('\n' :: ·)
  | _ + 1, '\r' :: _ => none
  | fuel + 1, '\\' :: '\n' :: rest => (afterContinuation rest).bind (quoted? fuel)
  | fuel + 1, '\\' :: '\r' :: '\n' :: rest => (afterContinuation rest).bind (quoted? fuel)
  | fuel + 1, '\\' :: rest =>
    match escaped? rest with
    | some (c, rest) => (quoted? fuel rest).map (c :: ·)
    | none => none
  | fuel + 1, c :: rest => (quoted? fuel rest).map (c :: ·)

/-- The text that a literal in double quotes stands for, nothing for any other literal. -/
def stringValue? (literal : String) : Option String :=
  match literal.toList with
  | '"' :: rest => (quoted? (rest.length + 1) rest).map String.ofList
  | _ => none

private theorem digitChar_hex : ∀ k < 16,
    isHex (Nat.digitChar k) = true ∧ hexValue (Nat.digitChar k) = k ∧
      Nat.digitChar k ≠ '}' ∧ Nat.digitChar k ≠ '_' := by
  decide

/-- What is read of hexadecimal digits up to the closing brace. -/
private theorem codePoint_digits {ds : List Char} (value digits : Nat) (rest : List Char)
    (hd : ∀ c ∈ ds, ∃ k < 16, c = Nat.digitChar k) (hl : digits + ds.length ≤ 6)
    (hne : digits + ds.length ≠ 0) :
    codePoint value digits (ds ++ '}' :: rest) =
      some (ds.foldl (fun v c => v * 16 + hexValue c) value, rest) := by
  induction ds generalizing value digits with
  | nil =>
    have hn : digits ≠ 0 := by simpa using hne
    simp [codePoint, hn]
  | cons c ds ih =>
    obtain ⟨k, hk, rfl⟩ := hd c List.mem_cons_self
    obtain ⟨hx, hv, hb, hu⟩ := digitChar_hex k hk
    simp only [List.length_cons] at hl
    have hlt : digits < 6 := by omega
    have hrest := ih (value * 16 + k) (digits + 1) (fun c hc => hd c (List.mem_cons_of_mem _ hc))
      (by omega) (by omega)
    rw [List.cons_append, codePoint, hv, hx, hrest, List.foldl_cons, hv]
    · simp [hlt]
    · exact hb
    · exact hu

private theorem toDigits_hex (n : Nat) :
    (Nat.toDigits 16 n).foldl (fun v c => v * 16 + hexValue c) 0 = n ∧
      ∀ c ∈ Nat.toDigits 16 n, ∃ k < 16, c = Nat.digitChar k := by
  induction n using Nat.strongRecOn with
  | ind n ih =>
    by_cases h : n < 16
    · rw [Nat.toDigits_of_lt_base h]
      simpa [(digitChar_hex n h).2.1] using ⟨n, h, rfl⟩
    · obtain ⟨hv, hd⟩ := ih (n / 16) (by omega)
      have hm : n % 16 < 16 := Nat.mod_lt _ (by decide)
      rw [Nat.toDigits_of_base_le (by decide) (by omega)]
      constructor
      · rw [List.foldl_append, hv, List.foldl_cons, List.foldl_nil, (digitChar_hex _ hm).2.1]
        omega
      · intro c hc
        rcases List.mem_append.mp hc with hc | hc
        · exact hd c hc
        · exact ⟨n % 16, hm, List.mem_singleton.mp hc⟩

private theorem isScalar_toNat (c : Char) : isScalar c.toNat = true := by
  have hv : c.toNat < 0xd800 ∨ 0xdfff < c.toNat ∧ c.toNat < 0x110000 := c.valid
  simpa [isScalar] using hv

private theorem escaped?_byCode (c : Char) (rest : List Char) :
    ∃ code, Quoted.byCode c ++ rest = '\\' :: 'u' :: code ∧
      escaped? ('u' :: code) = some (c, rest) := by
  obtain ⟨hv, hd⟩ := toDigits_hex c.toNat
  have hs := isScalar_toNat c
  have hl : (Nat.toDigits 16 c.toNat).length ≤ 6 := by
    rw [Nat.length_toDigits_le_iff (by decide) (by decide)]
    simp only [isScalar, Bool.or_eq_true, Bool.and_eq_true, decide_eq_true_eq] at hs
    omega
  have hne : (Nat.toDigits 16 c.toNat).length ≠ 0 := by
    simp [Nat.toDigits_ne_nil]
  refine ⟨'{' :: (Nat.toDigits 16 c.toNat ++ '}' :: rest), by simp [Quoted.byCode], ?_⟩
  rw [escaped?, codePoint_digits 0 0 rest hd (by omega) (by omega), hv]
  simp [hs, Char.ofNat_toNat]

/-- Reading one character that was written in front of others. -/
private theorem quoted?_escape (n : Nat) (c : Char) (rest : List Char) :
    quoted? (n + 1) (Quoted.escape c ++ rest) = (quoted? n rest).map (c :: ·) := by
  unfold Quoted.escape
  split
  · simp [quoted?, escaped?]
  · simp [quoted?, escaped?]
  · simp [quoted?, escaped?]
  · simp [quoted?, escaped?]
  · simp [quoted?, escaped?]
  · rename_i hq hb hn hr ht
    split
    · rw [List.singleton_append, quoted?]
      all_goals
        intros
        simp_all
    · obtain ⟨code, hc, he⟩ := escaped?_byCode c rest
      simp [hc, quoted?, he]

private theorem quoted?_sourceBody (n : Nat) (cs : List Char) (h : cs.length < n) :
    quoted? n (Quoted.sourceBody cs ++ ['"']) = some cs := by
  induction cs generalizing n with
  | nil =>
    obtain ⟨n, rfl⟩ := Nat.exists_eq_succ_of_ne_zero (Nat.ne_of_gt h)
    simp [Quoted.sourceBody, quoted?]
  | cons c cs ih =>
    obtain ⟨n, rfl⟩ := Nat.exists_eq_succ_of_ne_zero (Nat.ne_zero_of_lt h)
    have hr := ih n (by simpa using h)
    by_cases hc : c = '\x00'
    · subst hc
      rw [Quoted.sourceBody]
      split
      · have he (rest : List Char) : escaped? ('x' :: '0' :: '0' :: rest) = some ('\x00', rest) := by
          simp [escaped?, isHex, hexValue]
        simp [quoted?, he, hr]
      · simp [quoted?, escaped?, hr]
    · have hs : Quoted.sourceBody (c :: cs) = Quoted.escape c ++ Quoted.sourceBody cs := by
        rw [Quoted.sourceBody]
        exact hc
      rw [hs, List.append_assoc, quoted?_escape, hr, Option.map_some]

private theorem length_le_sourceBody (cs : List Char) :
    cs.length ≤ (Quoted.sourceBody cs).length := by
  induction cs with
  | nil => exact Nat.zero_le _
  | cons c cs ih =>
    have he : 0 < (Quoted.escape c).length := by
      unfold Quoted.escape
      repeat' split
      all_goals simp [Quoted.byCode]
    unfold Quoted.sourceBody
    repeat' split
    all_goals simp_all
    all_goals omega

theorem stringValue?_source (s : String) : stringValue? (Text.Quoted.source s) = some s := by
  have hl := length_le_sourceBody s.toList
  have hq := quoted?_sourceBody ((Quoted.sourceBody s.toList ++ ['"']).length + 1) s.toList (by
    rw [List.length_append]
    omega)
  rw [stringValue?, Text.Quoted.source, String.toList_ofList]
  exact (congrArg (Option.map String.ofList) hq).trans (by simp)

example : stringValue? "\"a\\u\x7b41\x7d\\x42\\\n  \\0\\\"\"" = some "aAB\x00\"" := by decide

end Switchboard.Source
