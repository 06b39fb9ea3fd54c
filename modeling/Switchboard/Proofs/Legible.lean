import Switchboard.Proofs.Literals

/-! Tokens that are read as themselves where they are written. A name of proper characters is in
front of a break, and a mark that begins no comment also in a row of joint marks, so it can be told
of a sequence of tokens before it is printed whether it will be read again. -/

namespace Switchboard.Source

open Text

namespace Lexer

section

variable {cs rest : List Char}

/-- What may stand in a name is neither a mark nor a sign that a literal begins with. -/
theorem sign_of_isContinue {c : Char} (h : Identifier.isContinue c = true) :
    c ∉ markChars ∧ c ∉ ['"', '#', '\'', '\\', '/'] := by
  have hall : ∀ d ∈ markChars ++ ['"', '#', '\'', '\\', '/'], Identifier.isContinue d = false :=
    List.all_iff_forall_prop.mp (by decide)
  have hc : c ∉ markChars ++ ['"', '#', '\'', '\\', '/'] := by
    intro hc
    rw [hall c hc] at h
    cases h
  simpa only [List.mem_append, not_or] using hc

private theorem not_isDigit_of_isStart {c : Char} (h : Identifier.isStart c = true) :
    c.isDigit = false := by
  cases hd : c.isDigit with
  | false => rfl
  | true =>
    have hall : ∀ d ∈ "0123456789".toList, Identifier.isStart d = false :=
      List.all_iff_forall_prop.mp (by decide)
    rw [hall c (mem_digits hd)] at h
    cases h

private theorem number?_of_isStart {c : Char} (h : Identifier.isStart c = true) (cs : List Char) :
    number? afterFloatDigits (c :: cs) = none ∧ number? afterIntDigits (c :: cs) = none := by
  have hd := not_isDigit_of_isStart h
  have hz : c ≠ '0' := by
    rintro rfl
    cases hd
  have hx : ¬ (isHex c && decide (hexValue c < 10)) = true := by
    simp only [isHex, hexValue, hd, Char.le_def, UInt32.le_iff_toNat_le, Bool.and_eq_true,
      Bool.or_eq_true, decide_eq_true_eq, Bool.false_eq_true, if_false, false_or]
    have ha : 'a'.val.toNat = 97 ∧ 'A'.val.toNat = 65 := by decide
    have hn : c.toNat = c.val.toNat := rfl
    split <;> omega
  simp [number?, afterFloatDigits, afterIntDigits, afterDigits, hd, hz, hx]

/-- The continuation of a name, up to a break. -/
structure Continues (cs rest : List Char) : Prop where
  name : ∀ c ∈ cs, Identifier.isContinue c = true
  ended : isBreak rest = true

namespace Continues

private theorem tail {c : Char} (h : Continues (c :: cs) rest) : Continues cs rest :=
  ⟨fun d hd => h.name d (List.mem_cons_of_mem _ hd), h.ended⟩

private theorem head {c : Char} {more : List Char} (h : Continues cs rest)
    (he : cs ++ rest = c :: more) :
    c ∉ ['"', '#', '\'', '\\'] := by
  cases cs with
  | nil =>
    obtain rfl : rest = c :: more := he
    have hall : ∀ d ∈ breaks, d ∉ ['"', '#', '\'', '\\'] :=
      List.all_iff_forall_prop.mp (by decide)
    exact hall c (mem_breaks h.ended)
  | cons d cs =>
    cases he
    have hc := (sign_of_isContinue (h.name c List.mem_cons_self)).2
    simp_all

private theorem second {c : Char} {more : List Char} (h : Continues cs rest)
    (hc : Identifier.isContinue c = true) (he : cs ++ rest = c :: more) :
    ∃ later, Continues later rest ∧ more = later ++ rest := by
  cases cs with
  | nil =>
    obtain rfl : rest = c :: more := he
    rw [not_isContinue_of_isBreak h.ended] at hc
    cases hc
  | cons d cs =>
    cases he
    exact ⟨cs, h.tail, rfl⟩

private theorem raw?_eq_none (h : Continues cs rest) (content : Content) :
    raw? content (cs ++ rest) = none := by
  cases he : cs ++ rest with
  | nil => rfl
  | cons c more =>
    have hc := h.head he
    simp only [List.mem_cons, not_or] at hc
    simp [raw?, hc]

private theorem name? {c : Char} (h : Continues cs rest) (hc : Identifier.isStart c = true) :
    name? (c :: (cs ++ rest)) = some (c :: cs, rest) := by
  have hr : rest.takeWhile Identifier.isContinue = [] ∧
      rest.dropWhile Identifier.isContinue = rest := by
    cases hrest : rest with
    | nil => exact ⟨rfl, rfl⟩
    | cons d more =>
      have hd := not_isContinue_of_isBreak (hrest ▸ h.ended)
      simp [hd]
  rw [Lexer.name?, if_pos hc, List.takeWhile_append_of_pos h.name,
    List.dropWhile_append_of_pos h.name, hr.1, hr.2, List.append_nil]

private theorem quoted?_eq_none {c : Char} (h : Continues cs rest)
    (hc : Identifier.isStart c = true) :
    Lexer.quoted? (c :: (cs ++ rest)) = none := by
  unfold Lexer.quoted?
  split
  · rename_i he
    cases he
    exact absurd hc (by decide)
  · rename_i he
    cases he
    exact h.raw?_eq_none _
  · rename_i he
    exact absurd (h.head (List.cons.inj he).2) (by simp)
  · rename_i he
    obtain ⟨later, hl, rfl⟩ := h.second (by decide) (List.cons.inj he).2
    exact hl.raw?_eq_none _
  · rename_i he
    exact absurd (h.head (List.cons.inj he).2) (by simp)
  · rename_i he
    obtain ⟨later, hl, rfl⟩ := h.second (by decide) (List.cons.inj he).2
    exact hl.raw?_eq_none _
  · rfl

private theorem literal?_eq_none {c : Char} (h : Continues cs rest)
    (hc : Identifier.isStart c = true) :
    literal? (c :: (cs ++ rest)) = none := by
  obtain ⟨hf, hi⟩ := number?_of_isStart hc (cs ++ rest)
  have hch : character? (c :: (cs ++ rest)) = none := by
    unfold character?
    split
    · rename_i he
      obtain rfl := (List.cons.inj he).1
      exact absurd hc (by decide)
    · rename_i he
      obtain rfl := (List.cons.inj he).1
      exact absurd hc (by decide)
    · rename_i he
      exact absurd (h.head (List.cons.inj he).2) (by simp)
    · rename_i he
      exact absurd (h.head (List.cons.inj he).2) (by simp)
    · rfl
  rw [literal?, h.quoted?_eq_none hc, hch, hf, hi]
  rfl

private theorem beginsLiteral_eq_false (h : Continues cs rest) (c : Char) :
    beginsLiteral (c :: (cs ++ rest)) = false := by
  unfold beginsLiteral
  split
  case h_11 => rfl
  all_goals
    rename_i he
    have ht := (List.cons.inj he).2
    first
    | exact absurd (h.head ht) (by decide)
    | obtain ⟨later, hl, hm⟩ := h.second (by decide) ht
      exact absurd (hl.head hm.symm) (by decide)

end Continues

private theorem markToken?_of_isContinue {c : Char} (h : Identifier.isContinue c = true)
    (cs : List Char) :
    markToken? (c :: cs) = none := by
  obtain ⟨hm, hs⟩ := sign_of_isContinue h
  simp only [List.mem_cons, not_or] at hs
  have hmark : mark? (c :: cs) = none := by
    simp [mark?, hs, hm]
  rw [markToken?, hmark]

end

end Lexer

/-- Whether a name is read as itself where it is written. -/
def Word.isLegible (w : Word) : Bool :=
  (match w.text.toList with
    | c :: cs => Identifier.isStart c && cs.all Identifier.isContinue
    | [] => false) && !(w.raw && Word.neverRaw.contains w.text)

namespace Lexer

variable {rest : List Char} {w : Word}

/-- The inside of a name: it begins as a name does and goes on as one. -/
theorem exists_of_isLegible (hw : w.isLegible = true) :
    ∃ c cs, w.text.toList = c :: cs ∧ Identifier.isStart c = true ∧
      (∀ d ∈ cs, Identifier.isContinue d = true) ∧
      (w.raw = true → Word.neverRaw.contains w.text = false) := by
  unfold Word.isLegible at hw
  split at hw
  · rename_i c cs hl
    simp only [Bool.and_eq_true, List.all_eq_true, Bool.not_eq_true', Bool.and_eq_false_imp] at hw
    exact ⟨c, cs, hl, hw.1.1, hw.1.2, hw.2⟩
  · cases hw

private theorem toList_written_of_plain {cs : List Char} (hl : w.text.toList = cs)
    (hr : w.raw = false) :
    w.written.toList = cs := by
  simp [Word.written, hr, hl]

private theorem toList_written_of_raw {cs : List Char} (hl : w.text.toList = cs)
    (hr : w.raw = true) :
    w.written.toList = 'r' :: '#' :: cs := by
  simp [Word.written, hr, hl]

/-- A name is written with characters of names, and the sign of a raw one behind the first. -/
theorem exists_written (hw : w.isLegible = true) :
    ∃ c cs, w.written.toList = c :: cs ∧ Identifier.isContinue c = true ∧
      ∀ d ∈ cs, Identifier.isContinue d = true ∨ d = '#' := by
  obtain ⟨c, cs, hl, hc, hcs, -⟩ := exists_of_isLegible hw
  have hc := Identifier.isContinue_of_isStart hc
  cases hr : w.raw with
  | false => exact ⟨c, cs, toList_written_of_plain hl hr, hc, fun d hd => .inl (hcs d hd)⟩
  | true =>
    refine ⟨'r', '#' :: c :: cs, toList_written_of_raw hl hr, by decide, fun d hd => ?_⟩
    rcases List.mem_cons.mp hd with rfl | hd
    · exact .inr rfl
    · rcases List.mem_cons.mp hd with rfl | hd
      · exact .inl hc
      · exact .inl (hcs d hd)

private theorem word?_written (hw : w.isLegible = true) (hr : isBreak rest = true) :
    word? (w.written.toList ++ rest) = some (w, rest) := by
  obtain ⟨c, cs, hl, hc, hcs, hraw⟩ := exists_of_isLegible hw
  have h : Continues cs rest := ⟨hcs, hr⟩
  obtain ⟨raw, text⟩ := w
  obtain rfl : text = String.ofList (c :: cs) := by simp [← hl]
  cases raw with
  | false =>
    rw [toList_written_of_plain hl rfl, List.cons_append]
    unfold word?
    split
    · rename_i he
      exact absurd (h.head (List.cons.inj he).2) (by decide)
    · rw [h.name? hc]
      rfl
  | true =>
    rw [toList_written_of_raw hl rfl]
    simp only [List.cons_append]
    rw [word?, h.name? hc]
    exact if_neg (by rw [hraw rfl]; decide)

/-- A name is read as itself where a break follows. -/
theorem leaf?_word (hw : w.isLegible = true) (hr : isBreak rest = true) :
    leaf? (w.written.toList ++ rest) = some (.word w, rest) := by
  have hword := word?_written hw hr
  obtain ⟨c, cs, hl, hc, hcs, -⟩ := exists_of_isLegible hw
  have h : Continues cs rest := ⟨hcs, hr⟩
  obtain ⟨hm, hsign⟩ := sign_of_isContinue (Identifier.isContinue_of_isStart hc)
  cases hraw : w.raw with
  | false =>
    rw [toList_written_of_plain hl hraw, List.cons_append] at hword ⊢
    rw [leaf?, h.literal?_eq_none hc,
      markToken?_of_isContinue (Identifier.isContinue_of_isStart hc), h.beginsLiteral_eq_false,
      hword]
    rfl
  | true =>
    rw [toList_written_of_raw hl hraw] at hword ⊢
    simp only [List.cons_append] at hword ⊢
    simp only [List.mem_cons, not_or] at hsign
    obtain ⟨hf, hi⟩ := number?_of_isStart (c := 'r') (by decide) ('#' :: c :: (cs ++ rest))
    have hq : literal? ('r' :: '#' :: c :: (cs ++ rest)) = none := by
      simp [literal?, Lexer.quoted?, raw?, hsign, character?, hf, hi]
    have hb : beginsLiteral ('r' :: '#' :: c :: (cs ++ rest)) = false := by
      simp [beginsLiteral, hsign]
    rw [leaf?, hq, markToken?_of_isContinue (by decide), hb, hword]
    rfl

/-- The marks that begin neither a comment nor a lifetime. -/
def pureMarks : List Char :=
  ['~', '!', '@', '#', '$', '%', '^', '&', '*', '-', '=', '+', '|', ';',
   ':', ',', '<', '.', '>', '?']

theorem mark?_of_pure {c : Char} (hc : c ∈ pureMarks) (cs : List Char) :
    mark? (c :: cs) = some (c, cs) := by
  have hall : ∀ d ∈ pureMarks, d ≠ '/' ∧ markChars.contains d = true :=
    List.all_iff_forall_prop.mp (by decide)
  obtain ⟨hs, hm⟩ := hall c hc
  unfold mark?
  split
  · cases ‹_ = _›
    exact absurd rfl hs
  · cases ‹_ = _›
    exact absurd rfl hs
  · rename_i he
    cases he
    rw [if_pos hm]
  · cases ‹_ = _›

private theorem literal?_mark {c : Char} (hc : c ∈ pureMarks) (cs : List Char) :
    literal? (c :: cs) = none := by
  have hall : ∀ d ∈ pureMarks, d ∉ ['"', 'r', 'b', 'c', '\'', '0', '_'] ∧ d.isDigit = false ∧
      isHex d = false := List.all_iff_forall_prop.mp (by decide)
  obtain ⟨hm, hd, hx⟩ := hall c hc
  simp only [List.mem_cons, not_or] at hm
  simp [literal?, Lexer.quoted?, character?, hm, number?, afterFloatDigits, afterIntDigits,
    afterDigits, hd, hx]

/-- A mark is joint just if another one is written against it. -/
theorem leaf?_mark {c : Char} (hc : c ∈ pureMarks) (cs : List Char) :
    leaf? (c :: cs) = some (.mark c (if (mark? cs).isSome then .joint else .alone), cs) := by
  have hn : c ≠ '\'' := by
    rintro rfl
    exact absurd hc (by decide)
  rw [leaf?, literal?_mark hc, markToken?, mark?_of_pure hc]
  simp

theorem mark?_of_isBreak (hr : isBreak rest = true) : mark? rest = none := by
  cases rest with
  | nil => rfl
  | cons c rest =>
    have hall : ∀ d ∈ breaks, d ≠ '/' ∧ d ∉ markChars :=
      List.all_iff_forall_prop.mp (by decide)
    obtain ⟨hs, hm⟩ := hall c (mem_breaks hr)
    simp [mark?, hs, hm]

/-- A tick is read as the beginning of a lifetime where a name that is not raw follows it. -/
theorem leaf?_lifetime (hw : w.isLegible = true) (hraw : w.raw = false) (hr : isBreak rest = true) :
    leaf? ('\'' :: (w.written.toList ++ rest)) =
      some (.mark '\'' .joint, w.written.toList ++ rest) := by
  have hword := word?_written hw hr
  obtain ⟨c, cs, hl, hc, hcs, -⟩ := exists_of_isLegible hw
  have h : Continues cs rest := ⟨hcs, hr⟩
  have hwritten : w.written.toList ++ rest = c :: (cs ++ rest) := by
    rw [toList_written_of_plain hl hraw, List.cons_append]
  obtain ⟨-, hsign⟩ := sign_of_isContinue (Identifier.isContinue_of_isStart hc)
  simp only [List.mem_cons, not_or] at hsign
  have htick : afterTick (cs ++ rest) = none := by
    unfold afterTick
    split
    · rename_i he
      exact absurd (h.head he) (by decide)
    · rfl
  have hliteral : literal? ('\'' :: c :: (cs ++ rest)) = none := by
    have hd : ('\'').isDigit = false ∧ isHex '\'' = false := by decide
    simp [literal?, Lexer.quoted?, character?, hsign, htick, number?, afterFloatDigits,
      afterIntDigits, afterDigits, hd]
  rw [hwritten] at hword ⊢
  have hlater : ∀ d more, rest = d :: more → d ≠ '\'' ∧ d ≠ '#' := by
    rintro d more rfl
    have hempty : Continues [] (d :: more) := ⟨by simp, hr⟩
    have hd := hempty.head rfl
    simp only [List.mem_cons, not_or] at hd
    exact ⟨hd.2.2.1, hd.2.1⟩
  have hmark : mark? ('\'' :: c :: (cs ++ rest)) = some ('\'', c :: (cs ++ rest)) := by
    rw [mark?]
    · exact if_pos (by decide)
    · simp
    · simp
  rw [leaf?, hliteral, markToken?, hmark]
  simp only [hword]
  cases rest with
  | nil => rfl
  | cons d more =>
    obtain ⟨ht, hh⟩ := hlater d more rfl
    simp [ht, hh]

end Lexer

open Lexer

/-- Token trees that are read as themselves from their printed form. -/
inductive Legible : List Token → Prop
  | nil : Legible []
  | word {w : Word} {ts : List Token} : w.isLegible = true → Legible ts → Legible (.word w :: ts)
  | literal {text : String} {ts : List Token} : IsLiteral text → Legible ts →
      Legible (.literal text :: ts)
  | group {d : Delimiter} {body ts : List Token} : Legible body → Legible ts →
      Legible (.group d body :: ts)
  | alone {c : Char} {ts : List Token} : c ∈ pureMarks → Legible ts → Legible (.mark c .alone :: ts)
  | joint {c d : Char} {s : Spacing} {ts : List Token} : c ∈ pureMarks → d ∈ pureMarks →
      Legible (.mark d s :: ts) → Legible (.mark c .joint :: .mark d s :: ts)
  | lifetime {w : Word} {ts : List Token} : w.isLegible = true → w.raw = false → Legible ts →
      Legible (.mark '\'' .joint :: .word w :: ts)

namespace Legible

theorem append {ts us : List Token} (ht : Legible ts) (hu : Legible us) : Legible (ts ++ us) := by
  induction ht with
  | nil => exact hu
  | word hw _ ih => exact ih.word hw
  | literal hl _ ih => exact ih.literal hl
  | group hb _ _ ih => exact hb.group ih
  | alone hc _ ih => exact ih.alone hc
  | joint hc hd _ ih => exact ih.joint hc hd
  | lifetime hw hr _ ih => exact ih.lifetime hw hr

end Legible

end Switchboard.Source
