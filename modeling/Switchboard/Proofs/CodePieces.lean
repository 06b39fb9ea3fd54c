import Switchboard.Emission.Code
import Switchboard.Proofs.NamePaths

/-! Pieces of source text. What is emitted is put together from pieces that are written with blanks
between their tokens, and such a piece is legible if a name, a lifetime or marks stand between every
two blanks. -/

namespace Switchboard.Emission

open Source Source.Lexer Text
open Source (Token Word)

/-- Whether characters are those of a name. -/
def isSpelled : List Char → Bool
  | [] => false
  | c :: cs => Identifier.isStart c && cs.all Identifier.isContinue

/-- Whether what stands between two blanks is read as itself: a lifetime, a name, or marks. -/
def isPiece : List Char → Bool
  | [] => true
  | c :: cs =>
    if c = '\'' then isSpelled cs
    else if c.isAlphanum || c == '_' then isSpelled (c :: cs)
    else (c :: cs).all pureMarks.contains

private theorem isLegible_of_isSpelled {cs : List Char} (h : isSpelled cs = true) :
    (Word.plain (String.ofList cs)).isLegible = true := by
  cases cs with
  | nil => cases h
  | cons c cs => simpa [Word.isLegible, Word.plain, isSpelled] using h

private theorem legible_marks {cs : List Char} (h : ∀ c ∈ cs, c ∈ pureMarks) :
    Legible (Token.marks cs) := by
  induction cs with
  | nil => exact .nil
  | cons c rest ih =>
    obtain ⟨hc, hrest⟩ := List.forall_mem_cons.mp h
    cases rest with
    | nil => exact .alone hc .nil
    | cons d rest =>
      have hd := hrest d List.mem_cons_self
      cases rest with
      | nil => exact .joint hc hd (ih hrest)
      | cons e rest => exact .joint hc hd (ih hrest)

private theorem legible_lexeme {cs : List Char} (h : isPiece cs = true) : Legible (lexeme cs) := by
  unfold lexeme
  split
  · exact .lifetime (isLegible_of_isSpelled h) rfl .nil
  · rename_i c cs hc
    have hc : c ≠ '\'' := fun he => hc (he ▸ rfl)
    rw [isPiece, if_neg hc] at h
    split at h
    · rw [if_pos ‹_›]
      exact .word (isLegible_of_isSpelled h) .nil
    · rw [if_neg ‹_›]
      exact legible_marks fun d hd => List.elem_iff.mp (List.all_eq_true.mp h d hd)
  · exact .nil

theorem legible_flatMap {ξ : Type} {tokens : ξ → List Token} {xs : List ξ}
    (h : ∀ x ∈ xs, Legible (tokens x)) : Legible (xs.flatMap tokens) := by
  induction xs with
  | nil => exact .nil
  | cons x xs ih =>
    obtain ⟨hx, hxs⟩ := List.forall_mem_cons.mp h
    exact hx.append (ih hxs)

/-- The tokens of a piece, told from its characters. -/
theorem code_ofList (cs : List Char) :
    code (String.ofList cs) = (cs.splitOn ' ').flatMap lexeme := by
  rw [code, String.toList_ofList]

theorem legible_code {cs : List Char} (h : (cs.splitOn ' ').all isPiece = true) :
    Legible (code (String.ofList cs)) := by
  rw [code_ofList]
  exact legible_flatMap fun piece hp => legible_lexeme (List.all_eq_true.mp h piece hp)

variable {body : List Token}

theorem legible_group (d : Delimiter) (h : Legible body) : Legible [.group d body] := h.group .nil

theorem legible_word {w : Word} (h : w.IsName) : Legible [.word w] := .word h.legible .nil

theorem legible_string (text : String) : Legible [.string text] :=
  .literal (isLiteral_source text) .nil

private theorem legible_attr (h : Legible body) : Legible (attr body) :=
  (legible_code (by rfl)).append (legible_group _ h)

theorem legible_call {function : String} (hf : Legible (code function)) (h : Legible body) :
    Legible (call function body) :=
  hf.append (legible_group _ h)

theorem legible_doc (text : String) : Legible (doc text) :=
  legible_attr ((legible_code (by rfl)).append (legible_string text))

theorem legible_rawDoc {text : String} (h : ∀ c ∈ text.toList, c ≠ '"' ∧ c ≠ '\r') :
    Legible (rawDoc text) :=
  legible_attr ((legible_code (by rfl)).append (.literal (isLiteral_raw h) .nil))

theorem legible_derive {names : String} (h : Legible (code names)) : Legible (derive names) :=
  legible_attr ((legible_code (by rfl)).append (legible_group _ h))

theorem legible_allow {names : String} (h : Legible (code names)) : Legible (allow names) :=
  legible_attr ((legible_code (by rfl)).append (legible_group _ h))

theorem legible_mustUse : Legible mustUse := legible_attr (legible_code (by rfl))

theorem legible_unmatchedArm : Legible unmatchedArm :=
  .append (.append (legible_code (by rfl)) (legible_call (legible_code (by rfl)) (.append
    (legible_call (legible_code (by rfl)) (legible_code (by rfl))) (legible_code (by rfl)))))
    (legible_code (by rfl))

end Switchboard.Emission
