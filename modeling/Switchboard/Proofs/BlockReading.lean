import Mathlib
import Switchboard.Proofs.ExpressionReading
import Switchboard.Source.File

/-! Blocks of statements and the arms of a match. -/

namespace Switchboard.Source

open Parse

namespace Statement

variable {g : Grammar} {n : Nat} {ts mid rest : List Token}

/-- Statements in a row. The last may be an expression that is the value of the block. -/
inductive Block (g : Grammar) : List Token → Prop
  | nil : Block g []
  | last {ts : List Token} : ts ≠ [] → Ahead.mark ";" ts = false → Accepts (one g) ts [] →
      Block g ts
  | cons {ts rest : List Token} : Ahead.mark ";" ts = false → Reads (one g) ts true rest →
      rest.length < ts.length → Block g rest → Block g ts

private theorem Block.reads (h : Block g ts) : Reads (statementsRule g) ts () [] := by
  induction h with
  | nil => exact .repeated_stop (.seen rfl .pure)
  | last hne hm ho =>
    obtain ⟨more, ho⟩ := ho
    refine .repeated_stop (.unseen (by simpa using hne) ?_)
    exact .bind (.mark?_of_false hm) (.bind ho (.seen rfl .pure))
  | @cons ts rest hm ho hl hb ih =>
    have hne : ts.isEmpty = false := by
      cases ts with
      | nil => exact absurd hl (Nat.not_lt_zero _)
      | cons => rfl
    cases rest with
    | nil =>
      refine .repeated_stop (.unseen hne ?_)
      exact .bind (.mark?_of_false hm) (.bind ho (.seen rfl .pure))
    | cons t rest =>
      refine .repeated_more (.unseen hne ?_) hl ih
      refine .bind (.mark?_of_false hm) (.bind ho (.unseen rfl ?_))
      exact .bind (.require rfl) .pure

/-- Statements in front of others. -/
theorem Block.of_flatMap {ξ : Type} {tokens : ξ → List Token} {xs : List ξ}
    (h : ∀ x ∈ xs, tokens x ≠ [] ∧ ∀ rest,
      Ahead.mark ";" (tokens x ++ rest) = false ∧ Reads (one g) (tokens x ++ rest) true rest)
    (hb : Block g ts) : Block g (xs.flatMap tokens ++ ts) := by
  induction xs with
  | nil => exact hb
  | cons x xs ih =>
    obtain ⟨⟨hne, hx⟩, hxs⟩ := List.forall_mem_cons.mp h
    rw [List.flatMap_cons, List.append_assoc]
    exact .cons (hx _).1 (hx _).2 (length_lt_append hne) (ih hxs)

/-- Whether an expression that is no block begins a statement. -/
def isBare (ts : List Token) : Bool :=
  !(Ahead.mark "#" ts || isCall ts || Ahead.key "let" ts || beginsItem ts)

theorem reads_one_expression {form : ExprForm} (hb : isBare ts = true)
    (h : Reads g.leadingExpr ts form (.mark ';' .alone :: rest)) : Reads (one g) ts true rest := by
  simp only [isBare, Bool.not_eq_true', Bool.or_eq_false_iff] at hb
  refine .bind (Expression.reads_outerAttributes_stop hb.1.1.1) (.unseen hb.1.1.2 ?_)
  refine .unseen hb.1.2 (.unseen hb.2 (.bind h (.bind (.mark?_of_true rfl) ?_)))
  exact .pure

/-- The value of a block. -/
theorem accepts_one_value (hb : isBare ts = true) (h : Accepts g.leadingExpr ts []) :
    Accepts (one g) ts [] := by
  obtain ⟨form, h⟩ := h
  simp only [isBare, Bool.not_eq_true', Bool.or_eq_false_iff] at hb
  refine ⟨false || form.kind == .block || form.kind == .call .brace, ?_⟩
  refine .bind (Expression.reads_outerAttributes_stop hb.1.1.1) (.unseen hb.1.1.2 ?_)
  exact .unseen hb.1.2 (.unseen hb.2 (.bind h (.bind (.mark?_of_false rfl) .pure)))

theorem reads_one_let {b c : Bool} (hp : Reads g.pattern ts b (.mark '=' .alone :: mid))
    (hv : Reads g.expr mid ⟨.other, c⟩ (.mark ';' .alone :: rest)) :
    Reads (one g) (.word (.plain "let") :: ts) true rest := by
  refine .bind (Expression.reads_outerAttributes_stop rfl) (.unseen (by rfl) (.seen (by rfl) ?_))
  refine .next ?_ .pure
  refine .bind (.key rfl ts) (.bind hp (.bind (.mark?_of_false rfl) (.bind (.mark?_of_true rfl) ?_)))
  refine .bind hv ?_
  have hend : Reads (mark ";") (.mark ';' .alone :: rest) () rest := .mark rfl
  cases c with
  | true => exact hend
  | false => exact .bind (.key?_of_false rfl) hend

end Statement

namespace Expression

variable {g : Grammar} {n : Nat} {ts mid rest body : List Token}

/-- Tokens that begin with the pattern of an arm that chooses by a text. -/
inductive StartsArm : List Token → Prop
  | literal (text : String) (ts : List Token) : StartsArm (.literal text :: ts)
  | word (w : Word) (ts : List Token) : StartsArm (.word w :: ts)

private theorem StartsArm.mark (h : StartsArm ts) (text : String) : Ahead.mark text ts = false := by
  unfold Ahead.mark
  cases h <;> rcases text.toList with _ | ⟨c, _ | ⟨d, cs⟩⟩ <;> rfl

/-- Whether an attribute comes next that is about what holds it. -/
def beginsInner (ts : List Token) : Bool :=
  Ahead.mark "#" ts && Ahead.mark "!" (Ahead.later ts)

theorem reads_innerAttributes_stop (h : beginsInner ts = false) :
    Reads (Path.innerAttributes g) ts () ts :=
  .next (.repeated_stop (.unseen h .pure)) .pure

private theorem StartsArm.not_inner (h : StartsArm ts) : beginsInner ts = false := by
  rw [beginsInner, h.mark, Bool.false_and]

/-- Statements in braces. -/
theorem reads_block (h : Statement.Block (.upTo n) body) (ha : beginsInner body = false)
    (rest : List Token) :
    Reads (Path.block (.upTo (n + 1))) (.group .brace body :: rest) () rest :=
  .group (.bind (reads_innerAttributes_stop ha) h.reads) rest

/-- A pattern and the arrow after it. -/
theorem reads_arm_front {α : Type} {p : Parse α} {a : α} (hs : StartsArm ts)
    (hp : Accepts (Pattern.alternatives g) ts (.mark '=' .joint :: .mark '>' .alone :: mid))
    (h : Reads p mid a rest) : Reads (do
      Path.outerAttributes g
      let _ ← Pattern.alternatives g
      if ← key? "if" then
        let _ ← g.expr
      mark "=>"
      p) ts a rest := by
  refine .bind (reads_outerAttributes_stop (hs.mark _)) (.after hp ?_)
  exact .bind (.key?_of_false rfl) (.bind (.mark rfl) h)

/-- An arm that is a block. -/
theorem reads_arm_block (hs : StartsArm ts)
    (hp : Accepts (Pattern.alternatives (.upTo (n + 2))) ts
      (.mark '=' .joint :: .mark '>' .alone :: .group .brace body :: rest))
    (hb : Statement.Block (.upTo n) body) (ha : beginsInner body = false) (hr : StartsArm rest) :
    Reads (arm (.upTo (n + 2))) ts () rest := by
  have hlike : Reads (blockLike? (.upTo (n + 1))) (.group .brace body :: rest) true rest := by
    have hloop : Reads (loop? (.upTo (n + 1))) (.group .brace body :: rest) false
        (.group .brace body :: rest) := fun _ => rfl
    refine .unseen (by rfl) (.bind hloop (.bind (.key?_of_false rfl) (.unseen (by rfl) ?_)))
    refine .bind (.key?_of_false rfl) (.unseen (by rfl) (.seen (by rfl) ?_))
    exact .bind (reads_block hb ha rest) .pure
  have hlead : Reads (Grammar.upTo (n + 2) .leadingExpr) (.group .brace body :: rest) block
      rest := by
    refine .bind (reads_outerAttributes_stop rfl) (.bind hlike (.unseen ?_ .pure))
    rw [hr.mark, hr.mark "?"]
    rfl
  refine reads_arm_front hs hp (.bind hlead ?_)
  exact .bind (a := rest.isEmpty) (fun _ => rfl) (.bind (.mark?_of_false (hr.mark _)) .pure)

/-- An arm with an expression that a comma ends. -/
theorem reads_arm_expression {c : Bool} (hs : StartsArm ts)
    (hp : Accepts (Pattern.alternatives g) ts (.mark '=' .joint :: .mark '>' .alone :: mid))
    (he : Reads g.leadingExpr mid ⟨.other, c⟩ (.mark ',' .alone :: rest)) :
    Reads (arm g) ts () rest := by
  have hend : Reads (mark ",") (.mark ',' .alone :: rest) () rest := .mark rfl
  refine reads_arm_front hs hp (.bind he ?_)
  exact .unseen rfl hend

/-- A match on the type name. -/
theorem reads_match (h : Sequenced (arm (.upTo (n + 3))) body) (hs : StartsArm body) :
    Reads (blockLike? (.upTo (n + 3)))
      (.word (.plain "match") :: .word (.plain "type_name") :: .group .brace body :: rest) true
      rest := by
  obtain ⟨l, hl⟩ := h.accepts
  have hloop (ts : List Token) : Reads (loop? (.upTo (n + 3))) (.word (.plain "match") :: ts) false
      (.word (.plain "match") :: ts) := fun _ => rfl
  have hsubject : Reads (Grammar.upTo (n + 3) (.expr false))
      (.word (.plain "type_name") :: .group .brace body :: rest) other
      (.group .brace body :: rest) := fun _ => by cbv
  refine .unseen (by rfl) (.bind (hloop _) (.bind (.key?_of_true rfl _) ?_))
  refine .next (.bind hsubject (.group ?_ rest)) .pure
  exact .next (reads_innerAttributes_stop hs.not_inner) (.bind hl .pure)

/-- The body of a function that chooses by the type name. -/
theorem block_match (h : Sequenced (arm (.upTo (n + 3))) body) (hs : StartsArm body) :
    Statement.Block (.upTo (n + 4))
      [.word (.plain "match"), .word (.plain "type_name"), .group .brace body] := by
  have hmatch : Reads (blockLike? (.upTo (n + 3))) [.word (.plain "match"),
      .word (.plain "type_name"), .group .brace body] true [] := reads_match h hs
  refine .last (List.cons_ne_nil _ _) rfl (Statement.accepts_one_value (by rfl) ⟨block, ?_⟩)
  exact .next (reads_outerAttributes_stop rfl) (.bind hmatch (.unseen (by rfl) .pure))

end Expression

end Switchboard.Source
