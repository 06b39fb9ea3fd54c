import Switchboard.Proofs.TypeReading

/-! Expressions that begin with a path, with calls and fields after them, up to where an expression
ends. -/

namespace Switchboard.Source

open Parse

namespace StartsPath

variable {ts : List Token}

private theorem marks (h : StartsPath ts) {ms : List String}
    (hm : ∀ m ∈ ms, m.toList.head? ≠ some ':') :
    (ms.any fun m => Ahead.mark m ts) = false :=
  List.any_eq_false.mpr fun m hmem => by simp [h.mark (hm m hmem)]

end StartsPath

namespace Expression

variable {g : Grammar} {n : Nat} {ts mid rest body : List Token} {b c structs : Bool}

/-- Tokens where an expression ends. -/
inductive Ends : List Token → Prop
  | nil : Ends []
  | comma (ts : List Token) : Ends (.mark ',' .alone :: ts)
  | semicolon (ts : List Token) : Ends (.mark ';' .alone :: ts)

theorem reads_operators_stop (h : Ends rest) (form : ExprForm) :
    Reads (operatorsRule g form structs .jump) rest form rest := by
  refine .repeated_stop ?_
  split
  · exact .pure
  · cases h <;> exact fun _ => rfl

/-! What follows an operand -/

theorem reads_trailers_stop (h : Ends rest) (b : Bool) :
    Reads (trailers g ⟨.other, b⟩) rest ⟨.other, b⟩ rest := by
  cases h <;> exact fun _ => rfl

theorem reads_trailers_call (h : Accepts (commaList g.expr) body [])
    (ht : Reads (trailers g other) ts ⟨.other, c⟩ rest) :
    Reads (trailers g ⟨.other, b⟩) (.group .paren body :: ts) ⟨.other, c⟩ rest := by
  obtain ⟨l, hl⟩ := h
  refine .repeated_more (.seen rfl ?_) (Nat.lt_succ_self _) ht
  exact .bind (.bind (.group hl ts) .pure) .pure

theorem reads_trailers_try (ht : Reads (trailers g other) ts ⟨.other, c⟩ rest) :
    Reads (trailers g ⟨.other, b⟩) (.mark '?' .alone :: ts) ⟨.other, c⟩ rest := by
  refine .repeated_more (.unseen rfl ?_) (Nat.lt_succ_self _) ht
  exact .unseen (by rfl) (.unseen (by rfl) (.bind (.mark?_of_true rfl) .pure))

private theorem reads_name {w : Word} (hw : w.isKeyword = false) (ts : List Token) :
    Reads Path.member (.word w :: ts) true ts :=
  .seen (by simp [Ahead.ident, Ahead.word?, hw]) (.bind (.ident hw ts) .pure)

/-- A field. -/
theorem reads_member {w : Word} (hw : w.isKeyword = false) (hc : Ahead.mark "::" ts = false)
    (hp : Ahead.group .paren ts = false) :
    Reads (member g) (.mark '.' .alone :: .word w :: ts) () ts := by
  refine .bind (.mark rfl) (.bind (a := none) (fun _ => rfl) ?_)
  refine .bind (.key?_of_false (Ahead.key_eq_false hw (by decide) ts)) (.bind (reads_name hw _) ?_)
  refine .unseen hc (.unseen hp .pure)

/-- A call of a method. -/
theorem reads_member_call {w : Word} (hw : w.isKeyword = false)
    (h : Accepts (commaList g.expr) body []) :
    Reads (member g) (.mark '.' .alone :: .word w :: .group .paren body :: ts) () ts := by
  obtain ⟨l, hl⟩ := h
  refine .bind (.mark rfl) (.bind (a := none) (fun _ => rfl) ?_)
  refine .bind (.key?_of_false (Ahead.key_eq_false hw (by decide) _)) (.bind (reads_name hw _) ?_)
  exact .unseen rfl (.seen rfl (.bind (.group hl ts) .pure))

theorem reads_trailers_member {w : Word}
    (h : Reads (member g) (.mark '.' .alone :: .word w :: ts) () mid) (hl : mid.length ≤ ts.length)
    (ht : Reads (trailers g other) mid ⟨.other, c⟩ rest) :
    Reads (trailers g ⟨.other, b⟩) (.mark '.' .alone :: .word w :: ts) ⟨.other, c⟩ rest := by
  have hstep : mid.length < (Token.mark '.' .alone :: .word w :: ts).length := by
    simp only [List.length_cons]
    omega
  exact .repeated_more (.unseen rfl (.seen (by rfl) (.bind h .pure))) hstep ht

theorem reads_trailers_method {w : Word} (hw : w.isKeyword = false)
    (h : Accepts (commaList g.expr) body []) (ht : Reads (trailers g other) ts ⟨.other, c⟩ rest) :
    Reads (trailers g ⟨.other, b⟩) (.mark '.' .alone :: .word w :: .group .paren body :: ts)
      ⟨.other, c⟩ rest :=
  reads_trailers_member (reads_member_call hw h) (Nat.le_succ _) ht

/-! Operands -/

/-- Whether an operator or an attribute comes before an operand. -/
def isPrefixed (ts : List Token) : Bool :=
  ["#", "&", "*", "!", "-"].any fun m => Ahead.mark m ts

theorem reads_outerAttributes_stop (h : Ahead.mark "#" ts = false) :
    Reads (Path.outerAttributes g) ts () ts :=
  .bind (.repeated_stop (.unseen h .pure)) .pure

theorem reads_operand {form form' : ExprForm} (hp : isPrefixed ts = false)
    (ha : Reads (atom g structs) ts form mid) (ht : Reads (trailers g form) mid form' rest) :
    Reads (operandRule g structs) ts form' rest := by
  simp only [isPrefixed, List.any_cons, List.any_nil, Bool.or_eq_false_iff] at hp
  obtain ⟨hhash, href, hstar, hbang, hminus, -⟩ := hp
  refine .unseen hhash (.bind (reads_outerAttributes_stop hhash) ?_)
  refine .bind (.mark?_of_false href) (.unseen ?_ (.bind ha (.bind ht ?_)))
  · simp [hstar, hbang, hminus]
  · exact .bind (.require rfl) .pure

/-- An expression of one operand. -/
theorem reads_expr {form form' : ExprForm} (hp : isPrefixed ts = false)
    (ha : Reads (atom (.upTo n) structs) ts form mid)
    (ht : Reads (trailers (.upTo n) form) mid form' rest) (he : Ends rest) :
    Reads (Grammar.upTo (n + 2) (.expr structs)) ts form' rest :=
  .bind (reads_operand hp ha ht) (reads_operators_stop he form')

/-- An expression of one operand where a statement or an arm begins. -/
theorem reads_leadingExpr {form form' : ExprForm} (hp : isPrefixed ts = false)
    (hb : Reads (blockLike? (.upTo (n + 1))) ts false ts)
    (ha : Reads (atom (.upTo n) true) ts form mid)
    (ht : Reads (trailers (.upTo n) form) mid form' rest) (he : Ends rest) :
    Reads (Grammar.upTo (n + 2) .leadingExpr) ts form' rest := by
  simp only [isPrefixed, List.any_cons, List.any_nil, Bool.or_eq_false_iff] at hp
  refine .bind (reads_outerAttributes_stop hp.1) (.bind hb ?_)
  exact .bind (reads_operand (by simp [isPrefixed, hp]) ha ht) (reads_operators_stop he form')

/-! Paths as operands -/

theorem isPrefixed_of_startsPath (h : StartsPath ts) : isPrefixed ts = false := h.marks (by decide)

private theorem reads_blockLike?_of_startsPath (h : StartsPath ts) :
    Reads (blockLike? g) ts false ts := by
  have hkey {k : String} (hk : k ∈ Word.keywords) (hs : k ∉ ["super", "self", "crate", "Self"]) :
      Ahead.key k ts = false := h.key hk hs
  have hloop : Reads (loop? g) ts false ts := by
    refine .bind (.key?_of_false (hkey (by decide) (by decide))) (.unseen ?_ ?_)
    · rw [beginsFor, hkey (by decide) (by decide), Bool.false_and]
    · exact .bind (.key?_of_false (hkey (by decide) (by decide))) .pure
  refine .unseen (hkey (by decide) (by decide)) (.bind hloop ?_)
  refine .bind (.key?_of_false (hkey (by decide) (by decide))) (.unseen ?_ ?_)
  · rw [keyBlock, hkey (by decide) (by decide), Bool.false_and]
  refine .bind (.key?_of_false (hkey (by decide) (by decide))) (.unseen ?_ ?_)
  · rw [keyBlock, hkey (by decide) (by decide), Bool.false_and]
  exact .unseen (h.group .brace) (.bind (.unseen h.lifetime .pure) .pure)

/-- An expression that a path begins where a statement or an arm begins. -/
theorem reads_leadingPath {form form' : ExprForm} (hs : StartsPath ts)
    (ha : Reads (atom (.upTo n) true) ts form mid)
    (ht : Reads (trailers (.upTo n) form) mid form' rest) (he : Ends rest) :
    Reads (Grammar.upTo (n + 2) .leadingExpr) ts form' rest :=
  reads_leadingExpr (isPrefixed_of_startsPath hs) (reads_blockLike?_of_startsPath hs) ha ht he

/-- What begins with a path is read as such. -/
theorem reads_atom {form : ExprForm} (h : StartsPath ts)
    (hn : Reads (named g structs) ts form rest) : Reads (atom g structs) ts form rest := by
  have hasync : Ahead.key "async" ts = false := h.key (by decide) (by decide)
  have hconst : Ahead.key "const" ts = false := h.key (by decide) (by decide)
  have hkeys : (["move", "for", "static"].any fun k => Ahead.key k ts) = false := h.keys (by decide)
  refine .unseen h.literal (.unseen ?_ (.bind (reads_blockLike?_of_startsPath h) (.unseen ?_ ?_)))
  · simp [beginsAsync, keyBlock, hasync]
  · rw [beginsClosure, h.mark (by decide), hkeys, hconst, hasync]
    rfl
  · refine .seen ?_ hn
    rw [beginsPath, Pattern.beginsPath]
    rcases h.begins with hb | hb | hb | hb | hb | hb <;> simp [hb]

/-- A path that neither calls a macro nor makes a struct. -/
theorem reads_named {form : PathForm} (hs : StartsPath ts)
    (h : Reads (Path.unqualified g true) ts form rest) (hm : Types.callsMacro rest = false)
    (hb : Ahead.group .brace rest = false) : Reads (named g structs) ts other rest := by
  refine .bind (.bind (.mark?_of_false (hs.mark (by decide))) h) (.unseen hm ?_)
  rw [Bool.and_false]
  refine .unseen hb ?_
  rw [Bool.and_false]
  exact .pure

/-- A path without arguments as an operand. -/
theorem reads_pathAtom (p : NamePath) (hr : endsPath rest = true)
    (hm : Types.callsMacro rest = false) (hb : Ahead.group .brace rest = false) :
    Reads (atom g structs) (p.tokens ++ rest) other rest :=
  have hs := StartsPath.tokens p rest
  reads_atom hs (reads_named hs (Path.reads_namePath p hr) hm hb)

/-- A path without arguments is an expression of its own. -/
theorem reads_pathExpr (p : NamePath) (he : Ends rest) :
    Reads (Grammar.upTo (n + 2) (.expr structs)) (p.tokens ++ rest) other rest := by
  have hatom : Reads (atom (.upTo n) structs) (p.tokens ++ rest) other rest := by
    cases he <;> exact reads_pathAtom p rfl rfl rfl
  exact reads_expr (isPrefixed_of_startsPath (.tokens p rest)) hatom (reads_trailers_stop he false)
    he

/-- A literal is an expression of its own. -/
theorem reads_literal (text : String) (he : Ends rest) :
    Reads (Grammar.upTo (n + 2) (.expr structs)) (.literal text :: rest) other rest := by
  have hliteral : Reads literal (.literal text :: rest) () rest := fun _ => rfl
  have hatom : Reads (atom (.upTo n) structs) (.literal text :: rest) other rest :=
    .seen rfl (.next hliteral .pure)
  exact reads_expr rfl hatom (reads_trailers_stop he false) he

/-- A path with the fields of the struct that it makes. -/
theorem reads_struct {form : PathForm} (hs : StartsPath ts)
    (h : Reads (Path.unqualified g true) ts form (.group .brace body :: rest))
    (hf : Reads (fields g) body () []) : Reads (named g true) ts braced rest := by
  refine .bind (.bind (.mark?_of_false (hs.mark (by decide))) h) (.unseen rfl ?_)
  rw [Bool.and_false]
  exact .seen rfl (.bind (.group hf rest) .pure)

/-- A field with the value that it is given, and a comma. -/
def IsField (g : Grammar) (ts : List Token) : Prop :=
  ∃ w value, ts = .word w :: .mark ':' .alone :: (value ++ [.mark ',' .alone]) ∧
    w.isKeyword = false ∧
      ∀ rest, Accepts g.expr (value ++ .mark ',' .alone :: rest) (.mark ',' .alone :: rest)

theorem reads_fields {ξ : Type} {tokens : ξ → List Token} {xs : List ξ}
    (h : ∀ x ∈ xs, IsField g (tokens x)) : Reads (fields g) (xs.flatMap tokens) () [] := by
  refine .next ?_ .pure
  induction xs with
  | nil => exact .repeated_stop (.seen rfl .pure)
  | cons x xs ih =>
    obtain ⟨⟨w, value, hx, hw, hv⟩, hxs⟩ := List.forall_mem_cons.mp h
    rw [List.flatMap_cons, hx, List.cons_append, List.cons_append, List.append_assoc,
      List.singleton_append]
    generalize xs.flatMap tokens = rest at ih ⊢
    have hfield : Reads (field g) (.word w :: .mark ':' .alone ::
        (value ++ .mark ',' .alone :: rest)) () (.mark ',' .alone :: rest) := by
      refine .bind (reads_outerAttributes_stop rfl) (.bind (reads_name hw _) (.seen rfl ?_))
      exact .bind (.mark rfl) (.after (hv rest) .pure)
    refine .repeated_more (.unseen rfl (.bind (.mark?_of_false rfl) (.bind hfield ?_))) ?_ (ih hxs)
    · exact .unseen rfl (.bind (.mark rfl) .pure)
    · simp only [List.length_cons, List.length_append]
      omega

end Expression

end Switchboard.Source
