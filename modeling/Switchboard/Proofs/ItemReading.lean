import Switchboard.Proofs.BlockReading

/-! Items around symbolic names: definitions of structs, implementations with their functions, and
modules. -/

namespace Switchboard.Source.Declaration

open Parse

variable {g : Grammar} {n : Nat} {ts mid after rest body : List Token} {w : Word}

theorem reads_no_clauses (h : Ahead.key "where" ts = false) :
    Reads (Generics.clauses? g) ts false ts :=
  .bind (.key?_of_false h) .pure

private theorem reads_no_parameters (h : Ahead.mark "<" ts = false) :
    Reads (Generics.parameters g) ts 0 ts :=
  .bind (.mark?_of_false h) .pure

/-! Functions -/

/-- What a function without generic parameters is called with and what it answers. -/
theorem reads_signature (constant : Bool) (hw : w.isKeyword = false)
    (ha : Accepts (arguments g) body []) (hr : Accepts (Path.returned g true) ts mid)
    (hm : Ahead.key "where" mid = false) :
    Reads (signature g false) ((if constant then [.word (.plain "const")] else []) ++
      .word (.plain "fn") :: .word w :: .group .paren body :: ts) () mid := by
  obtain ⟨⟨⟩, ha⟩ := ha
  have hconst : Reads (key? "const") ((if constant then [.word (.plain "const")] else []) ++
      .word (.plain "fn") :: .word w :: .group .paren body :: ts) constant
      (.word (.plain "fn") :: .word w :: .group .paren body :: ts) := by
    cases constant with
    | true => exact .key?_of_true rfl _
    | false => exact .key?_of_false rfl
  refine .bind hconst (.bind (.key?_of_false rfl) (.bind .pure (.bind (.key?_of_false rfl) ?_)))
  refine .next (.bind (.key?_of_false rfl) .pure) (.next (.key rfl _) (.bind (.ident hw _) ?_))
  refine .bind (reads_no_parameters rfl) (.next (.group ha _) (.after hr ?_))
  exact .bind (reads_no_clauses hm) .pure

/-- The type that a function answers. -/
theorem accepts_returned {plus : Bool} (h : Accepts (g (.type plus)) ts rest) :
    Accepts (Path.returned g plus) (.mark '-' .joint :: .mark '>' .alone :: ts) rest := by
  obtain ⟨form, h⟩ := h
  exact ⟨some form, .bind (.mark?_of_true rfl) (.bind h .pure)⟩

/-- A function whose body is a block. -/
theorem reads_function
    (hs : Reads (signature (.upTo (n + 1)) false) ts () (.group .brace body :: rest))
    (hb : Statement.Block (.upTo n) body) (ha : Expression.beginsInner body = false) :
    Reads (function (.upTo (n + 1)) false) ts () rest :=
  .next hs (.bind (.mark?_of_false rfl) (Expression.reads_block hb ha rest))

/-- A function among the members of an implementation, after its attributes. -/
theorem reads_implMember {visible : Bool} (ha : Reads (Path.outerAttributes g) ts () mid)
    (hv : Reads visibility mid visible after) (hd : Ahead.key "default" after = false)
    (hb : beginsFunction false after = true) (hf : Reads (function g false) after () rest) :
    Reads (implMember g) ts () rest := by
  refine .next ha (.bind hv (.unseen ?_ (.seen hb hf)))
  rw [hd, Bool.false_and]

/-- A function of an implementation with nothing in front of it. -/
theorem reads_private_function
    (hs : Reads (signature (.upTo (n + 1)) false) ts () (.group .brace body :: rest))
    (hf : ts.head? = some (.word (.plain "fn"))) (hb : Statement.Block (.upTo n) body)
    (ha : Expression.beginsInner body = false) :
    Reads (implMember (.upTo (n + 1))) ts () rest := by
  obtain ⟨us, rfl⟩ := List.head?_eq_some_iff.mp hf
  exact reads_implMember (Expression.reads_outerAttributes_stop rfl) (fun _ => rfl) rfl rfl
    (reads_function hs hb ha)

/-! Implementations -/

theorem accepts_members {α : Type} {p : Parse α} (h : Sequenced p body)
    (ha : Expression.beginsInner body = false) (rest : List Token) :
    Accepts (members g p) (.group .brace body :: rest) rest := by
  obtain ⟨l, hl⟩ := h.accepts
  exact ⟨l, .group (.next (Expression.reads_innerAttributes_stop ha) hl) rest⟩

/-- The functions of a type. -/
theorem reads_implementation (hw : w.IsName)
    (hm : Sequenced (implMember (.upTo (n + 1))) body) (ha : Expression.beginsInner body = false) :
    Reads (implementation (.upTo (n + 1)))
      (.word (.plain "impl") :: .word w :: .group .brace body :: rest) () rest := by
  have htype : Accepts (Grammar.upTo (n + 1) (.type true)) (.word w :: .group .brace body :: rest)
      (.group .brace body :: rest) := Types.reads_namePath (.single w hw) rfl true
  have hconst : Ahead.key "const" (.word w :: .group .brace body :: rest) = false :=
    Ahead.key_eq_false hw.free (by decide) _
  refine .bind (.key?_of_false rfl) (.bind (.key?_of_false rfl) (.next (.key rfl _) ?_))
  refine .unseen (by rfl) (.unseen (by rw [hconst]; rfl) (.unseen (by rfl) (.after htype ?_)))
  refine .bind (.key?_of_false rfl) (.next (.require rfl) (.bind (reads_no_clauses rfl) ?_))
  exact .after (accepts_members hm ha rest) .pure

/-- The functions of a type that make it what a trait asks for. -/
theorem reads_implementation_for (trait : NamePath) (hw : w.IsName)
    (hm : Accepts (members (.upTo (n + 1)) (implMember (.upTo (n + 1))))
      (.group .brace body :: rest) rest) :
    Reads (implementation (.upTo (n + 1))) (.word (.plain "impl") ::
      (trait.tokens ++ .word (.plain "for") :: .word w :: .group .brace body :: rest)) () rest := by
  have hs := StartsPath.tokens trait (.word (.plain "for") :: .word w :: .group .brace body :: rest)
  have ht : Accepts (Grammar.upTo (n + 1) (.type true))
      (trait.tokens ++ .word (.plain "for") :: .word w :: .group .brace body :: rest)
      (.word (.plain "for") :: .word w :: .group .brace body :: rest) :=
    Types.reads_namePath trait rfl true
  have htype : Accepts (Grammar.upTo (n + 1) (.type true)) (.word w :: .group .brace body :: rest)
      (.group .brace body :: rest) := Types.reads_namePath (.single w hw) rfl true
  refine .bind (.key?_of_false rfl) (.bind (.key?_of_false rfl) (.next (.key rfl _) ?_))
  refine .unseen ?_ (.unseen ?_ (.unseen ?_ (.after ht ?_)))
  · rw [Generics.begins, hs.mark (by decide), Bool.false_and]
  · rw [hs.key (by decide) (by decide), hs.mark (by decide), Bool.false_and, Bool.false_or]
  · rw [hs.mark (by decide), Bool.false_and]
  refine .bind (.key?_of_true rfl _) (.after htype (.bind (reads_no_clauses rfl) ?_))
  exact .after hm .pure

/-! Items -/

/-- An item with the attributes in front of it. -/
abbrev attributed (g : Grammar) : Parse Item := do
  Path.outerAttributes g
  g.item

theorem accepts_attributed (ha : Reads (Path.outerAttributes g) ts () mid)
    (h : Accepts g.item mid rest) : Accepts (attributed g) ts rest := by
  obtain ⟨item, h⟩ := h
  exact ⟨item, .next ha h⟩

theorem accepts_item_implementation
    (h : Reads (implementation (.upTo n)) (.word (.plain "impl") :: ts) () rest) :
    Accepts (Grammar.upTo (n + 1) .item) (.word (.plain "impl") :: ts) rest := by
  refine ⟨.other, .bind (.bind (.key?_of_false rfl) .pure) (.bind (a := _ :: ts) (fun _ => rfl) ?_)⟩
  exact .next h .pure

theorem accepts_item_struct {d : Definition} (hw : w.isKeyword = false)
    (hp : Ahead.mark "<" ts = false) (h : Reads (structBody (.upTo n)) ts d rest) :
    Accepts (Grammar.upTo (n + 1) .item)
      (.word (.plain "pub") :: .word (.plain "struct") :: .word w :: ts) rest := by
  have hv : Reads visibility (.word (.plain "pub") :: .word (.plain "struct") :: .word w :: ts) true
      (.word (.plain "struct") :: .word w :: ts) := fun _ => rfl
  refine ⟨.defines w d, .bind hv (.bind (a := _ :: _ :: ts) (fun _ => rfl) ?_)⟩
  exact .next (.key rfl _) (.bind (.ident hw ts) (.bind (reads_no_parameters hp) (.bind h .pure)))

theorem accepts_item_module (hw : w.isKeyword = false)
    (h : Sequenced (attributed (.upTo n)) body)
    (ha : Expression.beginsInner body = false) :
    Accepts (Grammar.upTo (n + 1) .item)
      (.word (.plain "pub") :: .word (.plain "mod") :: .word w :: .group .brace body :: rest)
      rest := by
  have hv : Reads visibility
      (.word (.plain "pub") :: .word (.plain "mod") :: .word w :: .group .brace body :: rest) true
      (.word (.plain "mod") :: .word w :: .group .brace body :: rest) := fun _ => rfl
  obtain ⟨l, hl⟩ := accepts_members (g := .upTo n) h ha rest
  refine ⟨.module w l, .bind hv (.bind (a := _ :: _ :: _ :: rest) (fun _ => rfl) ?_)⟩
  refine .bind (.key?_of_false rfl) (.next (.key rfl _) (.unseen ?_ ?_))
  · exact Ahead.key_eq_false hw (by decide) _
  · exact .bind (.ident hw _) (.bind (.mark?_of_false rfl) (.bind hl .pure))

end Switchboard.Source.Declaration
