import Switchboard.Proofs.ConverterText
import Switchboard.Proofs.MapperSource

/-! The source text of a converter is read by the grammar of source files, if its types are paths
without arguments and its places are such as a tuple has. -/

namespace Switchboard.Emission

open Source Source.Parse
open Source (Token Word)

variable {n : Nat} {mid rest : List Token}

/-- The module of what all converters share. -/
def corePath : NamePath where
  rooted := true
  head := .plain "typemux"
  tail := [.plain "core"]
  segments := by decide
  legible := by decide
  begins := .inl rfl

/-! Members -/

/-- Whether a member can be read where it is written. -/
inductive Member.IsReadable : Member → Prop
  | field {w : Word} : w.IsName → Member.IsReadable (.field w)
  | place {k : Nat} : k < 2 ^ 32 → Member.IsReadable (.place k)

private theorem isPlace_toString {k : Nat} (hk : k < 2 ^ 32) :
    Ahead.isPlace (toString k).toList = true := by
  have hl : (toString k).toList = Nat.toDigits 10 k := by simp
  have hd : (Nat.toDigits 10 k).all Char.isDigit = true := List.all_eq_true.mpr fun c hc =>
    Nat.isDigit_of_mem_toDigits (by decide) (by decide) hc
  have hne : (Nat.toDigits 10 k).isEmpty = false := by simp
  have hvalue : (Nat.toDigits 10 k).foldl (fun n c => n * 10 + (c.toNat - 48)) 0 = k := by
    have h : Nat.ofDigitChars 10 (Nat.toDigits 10 k) 0 = k := by simp
    unfold Nat.ofDigitChars at h
    simp only [Nat.mul_comm 10] at h
    exact h
  rw [Ahead.isPlace, hl, hd, hne, hvalue]
  simpa using hk

private theorem not_contains_point (k : Nat) : (toString k).toList.contains '.' = false := by
  have hl : (toString k).toList = Nat.toDigits 10 k := by simp
  have hd : '.' ∉ Nat.toDigits 10 k := fun h =>
    absurd (Nat.isDigit_of_mem_toDigits (by decide) (by decide) h) (by decide)
  simpa [hl] using hd

namespace Member

open Expression

variable {g : Grammar} {m : Member}

/-- A member after a point. -/
theorem IsReadable.reads_member (h : m.IsReadable) :
    Reads (Expression.member g) (.mark '.' .alone :: m.tokens) () [] := by
  cases h with
  | field hw => exact Expression.reads_member hw.free rfl rfl
  | @place k hk =>
    have hp : Ahead.place [.literal (toString k)] = true := isPlace_toString hk
    have hplace : Reads Path.member [.literal (toString k)] false [] :=
      .unseen rfl (.seen hp (.next (.require rfl)
        (.bind (a := .literal (toString k)) (fun _ => rfl) .pure)))
    have hnested : Reads nestedPlaces [.literal (toString k)] none [.literal (toString k)] := by
      intro behind
      have hn : ¬ (Ahead.isNumber (toString k) && (toString k).toList.contains '.') = true := by
        rw [not_contains_point, Bool.and_false]
        exact Bool.false_ne_true
      change Option.map _ ((if (Ahead.isNumber (toString k) &&
        (toString k).toList.contains '.') = true then _ else _ : Parse (Option Bool)) _) = _
      rw [if_neg hn]
      rfl
    refine .next (.mark rfl) (.bind hnested (.bind (.key?_of_false rfl) (.bind hplace ?_)))
    exact .pure

/-- A reference to a member of the object. -/
theorem IsReadable.reads_reference (h : m.IsReadable) :
    Reads (Grammar.upTo (n + 4) (.expr true)) (code "& object ." ++ m.tokens) other [] := by
  have hcode : code "& object ." ++ m.tokens = .mark '&' .alone :: .word (.plain "object") ::
      .mark '.' .alone :: m.tokens := rfl
  have hobject : Reads (atom (.upTo (n + 1)) true) (.word (.plain "object") :: .mark '.' .alone ::
      m.tokens) other (.mark '.' .alone :: m.tokens) :=
    reads_pathAtom (.single (.plain "object") ⟨by decide, by decide⟩) rfl rfl rfl
  have hm := h.reads_member (g := .upTo (n + 1))
  have htrailers : Reads (trailers (.upTo (n + 1)) other) (.mark '.' .alone :: m.tokens) other
      [] := by
    refine .repeated_more (.unseen rfl (.seen (by rfl) (.next hm .pure))) ?_
      (reads_trailers_stop .nil false)
    simp only [List.length_cons, List.length_nil, Nat.zero_lt_succ]
  have hoperand : Reads (Grammar.upTo (n + 2) (.operand true)) (.word (.plain "object") ::
      .mark '.' .alone :: m.tokens) other [] := reads_operand rfl hobject htrailers
  rw [hcode]
  refine .bind (a := other) (.unseen rfl ?_) (reads_operators_stop .nil other)
  refine .next (reads_outerAttributes_stop rfl) (.bind (.mark?_of_true rfl) (.unseen (by rfl) ?_))
  exact .bind (.key?_of_false rfl) (.bind hoperand .pure)

private theorem IsReadable.legible_tokens (h : m.IsReadable) : Legible m.tokens := by
  cases h with
  | field hw => exact legible_word hw
  | place => exact .literal (Lexer.isLiteral_digits _) .nil

end Member

namespace ConverterArm

open Expression

/-! Expressions -/

private theorem reads_taken (key : String) :
    Reads (Grammar.upTo (n + 4) (.expr true)) (taken key ++ .mark ',' .alone :: rest) other
      (.mark ',' .alone :: rest) := by
  have hkey : Listed (Grammar.upTo (n + 2)).expr [.string key] :=
    .last (reads_literal _ .nil).accepts (List.cons_ne_nil _ _)
  have hfields (ts : List Token) : Reads (atom (.upTo (n + 2)) true) (.word (.plain "fields") ::
      .mark '.' .alone :: ts) other (.mark '.' .alone :: ts) :=
    reads_pathAtom (.single (.plain "fields") ⟨by decide, by decide⟩) rfl rfl rfl
  have htrailers := reads_trailers_method (b := false) (w := .plain "take") (by decide) hkey.accepts
    (reads_trailers_try (reads_trailers_stop (.comma rest) false))
  exact reads_expr rfl (hfields _) htrailers (.comma rest)

/-- The statement that writes a member. -/
theorem reads_put {entry : String × Member} (h : entry.2.IsReadable) :
    Reads (Statement.one (.upTo (n + 8))) (put entry ++ rest) true rest := by
  have hput : put entry ++ rest = .word (.plain "record") :: .mark '.' .alone ::
      .word (.plain "put") :: .group .paren (.string entry.1 :: .mark ',' .alone ::
        (code "& object ." ++ entry.2.tokens)) :: .mark '?' .alone :: .mark ';' .alone :: rest := rfl
  have hkey : Reads (Grammar.upTo (n + 6) (.expr true)) (.string entry.1 :: .mark ',' .alone ::
      (code "& object ." ++ entry.2.tokens)) other
      (.mark ',' .alone :: (code "& object ." ++ entry.2.tokens)) := reads_literal _ (.comma _)
  have hlast : Listed (Grammar.upTo (n + 6)).expr (code "& object ." ++ entry.2.tokens) :=
    .last h.reads_reference.accepts (List.cons_ne_nil _ _)
  have harguments : Accepts (commaList (Grammar.upTo (n + 6)).expr) (.string entry.1 ::
      .mark ',' .alone :: (code "& object ." ++ entry.2.tokens)) [] :=
    (Listed.cons hkey.accepts (Nat.lt_succ_self _) hlast).accepts
  have hatom (ts : List Token) : Reads (atom (.upTo (n + 6)) true)
      (.word (.plain "record") :: .mark '.' .alone :: ts) other (.mark '.' .alone :: ts) :=
    reads_pathAtom (.single (.plain "record") ⟨by decide, by decide⟩) rfl rfl rfl
  have htrailers := reads_trailers_method (b := false) (w := .plain "put") (by decide) harguments
    (reads_trailers_try (reads_trailers_stop (.semicolon rest) false))
  rw [hput]
  exact Statement.reads_one_expression (by rfl)
    (reads_leadingPath (.word _ (by decide) (by decide)) (hatom _) htrailers (.semicolon rest))

private theorem isBare_boxed (object : List Token) : Statement.isBare (boxed object) = true := by
  unfold boxed
  generalize call ":: std :: boxed :: Box :: new" object = body
  cbv

/-- What is put into a box and handed back. -/
theorem reads_boxed {object : List Token} (h : Accepts (Grammar.upTo n (.expr true)) object [])
    (hne : object ≠ []) (he : Ends rest) :
    Reads (Grammar.upTo (n + 4) .leadingExpr) (boxed object ++ rest) other rest := by
  have hbox : Reads (atom (.upTo n) true) (code ":: std :: boxed :: Box :: new" ++
      [.group .paren object]) other [.group .paren object] :=
    reads_pathAtom (.global (.plain "std") [.plain "boxed", .plain "Box", .plain "new"]
      (by decide) (by decide)) rfl rfl rfl
  have hok (body : List Token) : Reads (atom (.upTo (n + 2)) true)
      (code ":: std :: result :: Result :: Ok" ++ .group .paren body :: rest) other
      (.group .paren body :: rest) :=
    reads_pathAtom (.global (.plain "std") [.plain "result", .plain "Result", .plain "Ok"]
      (by decide) (by decide)) rfl rfl rfl
  have hnew : Reads (Grammar.upTo (n + 2) (.expr true))
      (call ":: std :: boxed :: Box :: new" object) other [] :=
    reads_expr rfl hbox (reads_trailers_call (Listed.last h hne).accepts
      (reads_trailers_stop .nil false)) .nil
  have hlist : Listed (Grammar.upTo (n + 2)).expr (call ":: std :: boxed :: Box :: new" object) :=
    .last hnew.accepts (List.cons_ne_nil _ _)
  have htrailers := reads_trailers_call (b := false) hlist.accepts (reads_trailers_stop he false)
  exact reads_leadingPath (.colons _) (hok _) htrailers he

/-- The function that hands out an object of a type, with the type as its argument. -/
theorem reads_downcast {a : ConverterArm} {p : NamePath} (ht : a.type = p.tokens) :
    StartsPath (a.downcast ++ rest) ∧ Reads (atom (.upTo (n + 1)) true) (a.downcast ++ rest) other
      (.group .paren (code "object , type_name") :: rest) := by
  have hfront : code ":: typemux :: core :: downcast_payload :: <" =
      [.mark ':' .joint, .mark ':' .alone, .word (.plain "typemux"), .mark ':' .joint,
        .mark ':' .alone, .word (.plain "core"), .mark ':' .joint, .mark ':' .alone,
        .word (.plain "downcast_payload"), .mark ':' .joint, .mark ':' .alone,
        .mark '<' .alone] := rfl
  have hclose : code ">" = [.mark '>' .alone] := rfl
  simp only [downcast, ht, hfront, hclose, paren, List.append_assoc, List.cons_append,
    List.nil_append]
  have hends : Ahead.mark "::" (.group .paren (code "object , type_name") :: rest) = false := rfl
  have hpath := Path.reads_pathArguments (n := n) corePath (w := .plain "downcast_payload")
    (by decide) p true hends
  exact ⟨.colons _, reads_atom (.colons _) (reads_named (.colons _) hpath rfl rfl)⟩

/-- Whether the source text of an arm is read: its type is a path without arguments, and so are its
members, which have names if the type is written with braces. -/
structure IsReadable (a : ConverterArm) : Prop where
  type : ∃ p : NamePath, a.type = p.tokens
  members : ∀ fields, a.fields = some fields → ∀ e ∈ fields, e.2.IsReadable
  named : a.named = true → ∀ fields, a.fields = some fields → ∀ e ∈ fields, ∃ w, e.2 = .field w

variable {a : ConverterArm}

private theorem IsReadable.accepts_construct (h : a.IsReadable) {fields : List (String × Member)}
    (hf : a.fields = some fields) :
    Accepts (Grammar.upTo (n + 6) (.expr true)) (a.construct fields) [] := by
  obtain ⟨p, hp⟩ := h.type
  rw [construct, hp]
  split
  · rename_i hn
    have hfields : ∀ e ∈ fields, IsField (.upTo (n + 4))
        (e.2.tokens ++ code ":" ++ taken e.1 ++ code ",") := by
      intro e he
      obtain ⟨w, hw⟩ := h.named hn fields hf e he
      have hr := h.members fields hf e he
      rw [hw] at hr ⊢
      cases hr with
      | field hk =>
        exact ⟨w, taken e.1, by simp [Member.tokens]; rfl, hk.free, fun rest =>
          (reads_taken e.1).accepts⟩
    have hs := StartsPath.tokens p (brace (fields.flatMap fun e =>
      e.2.tokens ++ code ":" ++ taken e.1 ++ code ","))
    exact ⟨_, reads_expr (isPrefixed_of_startsPath hs) (reads_atom hs (reads_struct hs
      (Path.reads_namePath p rfl) (reads_fields hfields))) (reads_trailers_stop .nil true) .nil⟩
  · have hs := StartsPath.tokens p (paren (fields.flatMap fun e => taken e.1 ++ code ","))
    have hlist : Listed (Grammar.upTo (n + 4)).expr
        (fields.flatMap fun e => taken e.1 ++ code ",") :=
      .of_flatMap fun e _ => ⟨List.cons_ne_nil _ _, fun rest => (reads_taken e.1).accepts⟩
    exact ⟨_, reads_expr (isPrefixed_of_startsPath hs) (reads_atom hs (reads_named hs
      (Path.reads_namePath p rfl) rfl rfl)) (reads_trailers_call hlist.accepts
        (reads_trailers_stop .nil false)) .nil⟩

/-! Arms -/

private theorem accepts_key (key : String) :
    Accepts (Pattern.alternatives (.upTo (n + 2))) (.string key :: .mark '=' .joint ::
      .mark '>' .alone :: rest) (.mark '=' .joint :: .mark '>' .alone :: rest) := by
  unfold Token.string
  generalize Text.Quoted.source key = text
  exact ⟨false, fun _ => by cbv⟩

private theorem accepts_object :
    Accepts (commaList (Grammar.upTo (n + 4)).expr) (code "object , type_name") [] :=
  Grammar.accepts_of_inside (fun g => commaList g.expr) (fun _ _ _ => inferInstance) 4
    (by decide +kernel)

/-- The statement that keeps what a function of a path makes. -/
theorem reads_make {w : Word} (p : NamePath) {body : List Token}
    (hp : ∀ mid, Reads (Grammar.upTo (n + 8) .pattern)
      (.word (.plain "mut") :: .word w :: .mark '=' .alone :: mid) false (.mark '=' .alone :: mid))
    (h : Accepts (commaList (Grammar.upTo (n + 6)).expr) body []) :
    Reads (Statement.one (.upTo (n + 8))) (.word (.plain "let") :: .word (.plain "mut") ::
      .word w :: .mark '=' .alone :: (p.tokens ++ .group .paren body :: .mark ';' .alone :: rest))
      true rest := by
  have hs := StartsPath.tokens p (.group .paren body :: .mark ';' .alone :: rest)
  exact Statement.reads_one_let (hp _) (reads_expr (isPrefixed_of_startsPath hs)
    (reads_pathAtom p rfl rfl rfl) (reads_trailers_call h
      (reads_trailers_stop (.semicolon rest) false)) (.semicolon rest))

/-- The statements that make a record of an object. -/
theorem IsReadable.block_encode (h : a.IsReadable) {fields : List (String × Member)}
    (hf : a.fields = some fields) : Statement.Block (.upTo (n + 10))
      (code "let object =" ++ a.downcast ++ code "? ;" ++
        call "let mut record = :: typemux :: core :: RecordBuilder :: new" (code "type_name") ++
        code ";" ++ fields.flatMap put ++
        call ":: std :: result :: Result :: Ok" (call "record . finish" [])) := by
  obtain ⟨p, hp⟩ := h.type
  have hlast : Statement.Block (.upTo (n + 10))
      (call ":: std :: result :: Result :: Ok" (call "record . finish" [])) :=
    .last (List.cons_ne_nil _ _) rfl (Grammar.accepts_of_inside Statement.one
      (fun _ _ _ => inferInstance) 10 (by decide +kernel))
  have hputs : Statement.Block (.upTo (n + 10)) (fields.flatMap put ++
      call ":: std :: result :: Result :: Ok" (call "record . finish" [])) :=
    .of_flatMap (fun e he => ⟨List.cons_ne_nil _ _, fun rest =>
      ⟨rfl, reads_put (h.members fields hf e he)⟩⟩) hlast
  have hrecord (ts : List Token) : Reads (Statement.one (.upTo (n + 10)))
      (call "let mut record = :: typemux :: core :: RecordBuilder :: new" (code "type_name") ++
        code ";" ++ ts) true ts :=
    reads_make (n := n + 2) (w := .plain "record") (.global (.plain "typemux") [.plain "core",
      .plain "RecordBuilder", .plain "new"] (by decide) (by decide)) (fun _ _ => rfl)
      (Grammar.accepts_of_inside (fun g => commaList g.expr) (fun _ _ _ => inferInstance) 8
        (by decide +kernel))
  have hrecords : Statement.Block (.upTo (n + 10))
      (call "let mut record = :: typemux :: core :: RecordBuilder :: new" (code "type_name") ++
        code ";" ++ (fields.flatMap put ++
          call ":: std :: result :: Result :: Ok" (call "record . finish" []))) :=
    .cons rfl (hrecord _) (length_lt_append (by decide)) hputs
  have hpattern (ts : List Token) : Reads (Grammar.upTo (n + 10) .pattern)
      (.word (.plain "object") :: .mark '=' .alone :: ts) false (.mark '=' .alone :: ts) :=
    fun _ => by cbv
  have hobject (ts : List Token) : Reads (Grammar.upTo (n + 10) (.expr true))
      (a.downcast ++ .mark '?' .alone :: .mark ';' .alone :: ts) other (.mark ';' .alone :: ts) := by
    obtain ⟨hs, hatom⟩ := reads_downcast (n := n + 7) hp
    exact reads_expr (isPrefixed_of_startsPath hs) hatom (reads_trailers_call accepts_object
      (reads_trailers_try (reads_trailers_stop (.semicolon ts) false))) (.semicolon ts)
  have hfront : code "let object =" =
    [.word (.plain "let"), .word (.plain "object"), .mark '=' .alone] := rfl
  have hend : code "? ;" = [.mark '?' .alone, .mark ';' .alone] := rfl
  simp only [hfront, hend, List.append_assoc, List.cons_append, List.nil_append] at hrecords ⊢
  refine .cons rfl (Statement.reads_one_let (hpattern _) (hobject _)) ?_ hrecords
  simp only [List.length_cons, List.length_append]
  omega

/-- The arm that makes a record is read in front of another arm. -/
theorem IsReadable.reads_encode (h : a.IsReadable) (hr : StartsArm rest) :
    Reads (arm (.upTo (n + 12))) (a.encode ++ rest) () rest := by
  have harrow : code "=>" = [.mark '=' .joint, .mark '>' .alone] := rfl
  have hcomma : code "," = [.mark ',' .alone] := rfl
  cases hf : a.fields with
  | none =>
    obtain ⟨p, hp⟩ := h.type
    have hmap : Accepts (commaList (Grammar.upTo (n + 10)).expr)
        (call "| _ | :: typemux :: core :: Record :: new" []) [] :=
      Grammar.accepts_of_inside (fun g => commaList g.expr) (fun _ _ _ => inferInstance) 10
        (by decide +kernel)
    have hmapped := reads_trailers_method (b := false) (w := .plain "map") (by decide) hmap
      (reads_trailers_stop (.comma rest) false)
    obtain ⟨hs, hatom⟩ := reads_downcast (n := n + 9) hp
    simp only [encode, hf, keyTokens, harrow, hcomma, List.append_assoc, List.cons_append,
      List.nil_append]
    exact reads_arm_expression (.literal _ _) (accepts_key _)
      (reads_leadingPath hs hatom (reads_trailers_call accepts_object hmapped) (.comma rest))
  | some fields =>
    simp only [encode, hf, keyTokens, harrow, brace, List.append_assoc, List.cons_append,
      List.nil_append]
    have hb := h.block_encode (n := n) hf
    simp only [List.append_assoc] at hb
    exact reads_arm_block (.literal _ _) (accepts_key _) hb rfl hr

/-- The arm that makes an object is read in front of another arm. -/
theorem IsReadable.reads_decode (h : a.IsReadable) (hr : StartsArm rest) :
    Reads (arm (.upTo (n + 12))) (a.decode ++ rest) () rest := by
  obtain ⟨p, hp⟩ := h.type
  have harrow : code "=>" = [.mark '=' .joint, .mark '>' .alone] := rfl
  have hcomma : code "," = [.mark ',' .alone] := rfl
  cases hf : a.fields with
  | none =>
    have hs := StartsPath.tokens p (brace [])
    have hstruct : Accepts (Grammar.upTo (n + 8) (.expr true)) (a.type ++ brace []) [] := by
      rw [hp]
      exact ⟨_, reads_expr (isPrefixed_of_startsPath hs) (reads_atom hs (reads_struct hs
        (Path.reads_namePath p rfl) (fun _ => rfl))) (reads_trailers_stop .nil true) .nil⟩
    have hbody : Reads (Grammar.upTo (n + 12) .leadingExpr) (boxed (a.type ++ brace []) ++
        .mark ',' .alone :: rest) other (.mark ',' .alone :: rest) :=
      reads_boxed hstruct (by simp [brace]) (.comma rest)
    simp only [decode, hf, keyTokens, harrow, hcomma, List.append_assoc, List.cons_append,
      List.nil_append]
    exact reads_arm_expression (.literal _ _) (accepts_key _) hbody
  | some fields =>
    have hconstruct : Accepts (Grammar.upTo (n + 6) (.expr true)) (a.construct fields) [] :=
      h.accepts_construct hf
    have hne : a.construct fields ≠ [] := by
      rw [construct]
      split <;> simp [brace, paren]
    have hboxed : Reads (Grammar.upTo (n + 10) .leadingExpr) (boxed (a.construct fields)) other
        [] := by
      rw [← List.append_nil (boxed _)]
      exact reads_boxed hconstruct hne .nil
    have hlet (ts : List Token) : Reads (Statement.one (.upTo (n + 10)))
        (call "let mut fields = :: typemux :: core :: Fields :: new" (code "type_name , record") ++
          code ";" ++ ts) true ts :=
      reads_make (n := n + 2) (w := .plain "fields") (.global (.plain "typemux") [.plain "core",
        .plain "Fields", .plain "new"] (by decide) (by decide)) (fun _ _ => rfl)
        (Grammar.accepts_of_inside (fun g => commaList g.expr) (fun _ _ _ => inferInstance) 8
          (by decide +kernel))
    have hblock : Statement.Block (.upTo (n + 10))
        (call "let mut fields = :: typemux :: core :: Fields :: new" (code "type_name , record") ++
          code ";" ++ boxed (a.construct fields)) :=
      .cons rfl (hlet _) (length_lt_append (by decide)) (.last (List.cons_ne_nil _ _) rfl
        (Statement.accepts_one_value (isBare_boxed _) hboxed.accepts))
    simp only [decode, hf, keyTokens, harrow, brace, List.append_assoc, List.cons_append,
      List.nil_append]
    exact reads_arm_block (.literal _ _) (accepts_key _) hblock rfl hr

/-! Texts -/

private theorem legible_taken (key : String) : Legible (taken key) :=
  .append (.append (legible_code (by rfl)) (legible_group _ (legible_string key)))
    (legible_code (by rfl))

private theorem legible_put {entry : String × Member} (h : entry.2.IsReadable) :
    Legible (put entry) := by
  refine .append (.append (legible_code (by rfl)) (legible_group _ ?_)) (legible_code (by rfl))
  exact .append (.append (legible_string _) (legible_code (by rfl))) h.legible_tokens

private theorem legible_boxed {object : List Token} (h : Legible object) : Legible (boxed object) :=
  legible_call (legible_code (by rfl)) (legible_call (legible_code (by rfl)) h)

/-- Whether the text of an arm is read again as its tokens: those of its type are, and so are those of
its members. -/
structure IsLegible (a : ConverterArm) : Prop where
  type : Legible a.type
  members : ∀ fields, a.fields = some fields → ∀ e ∈ fields, e.2.IsReadable

theorem IsReadable.isLegible (h : a.IsReadable) : a.IsLegible := by
  obtain ⟨p, hp⟩ := h.type
  exact ⟨hp ▸ p.legible_tokens, h.members⟩

private theorem IsLegible.construct (h : a.IsLegible) {fields : List (String × Member)}
    (hf : a.fields = some fields) : Legible (a.construct fields) := by
  rw [ConverterArm.construct]
  refine h.type.append ?_
  split
  · exact legible_group _ (legible_flatMap fun e he => .append (.append (.append
      (h.members fields hf e he).legible_tokens (legible_code (by rfl))) (legible_taken _))
        (legible_code (by rfl)))
  · exact legible_group _ (legible_flatMap fun e _ => (legible_taken _).append
      (legible_code (by rfl)))

private theorem IsLegible.downcast (h : a.IsLegible) : Legible a.downcast := by
  rw [ConverterArm.downcast]
  exact .append (.append (.append (legible_code (by rfl)) h.type) (legible_code (by rfl)))
    (legible_group _ (legible_code (by rfl)))

private theorem legible_keyTokens (a : ConverterArm) : Legible a.keyTokens :=
  (legible_string _).append (legible_code (by rfl))

private theorem IsLegible.decode (h : a.IsLegible) : Legible a.decode := by
  rw [ConverterArm.decode]
  refine a.legible_keyTokens.append ?_
  split
  · rename_i fields hf
    refine legible_group _ (.append (.append (legible_call ?_ ?_) ?_) (legible_boxed (h.construct hf)))
    all_goals exact legible_code (by rfl)
  · exact .append (legible_boxed (h.type.append (legible_group _ .nil))) (legible_code (by rfl))

private theorem IsLegible.encode (h : a.IsLegible) : Legible a.encode := by
  rw [ConverterArm.encode]
  refine a.legible_keyTokens.append ?_
  split
  · rename_i fields hf
    refine legible_group _ (.append (.append (.append (.append (.append (.append ?_
      h.downcast) ?_) (legible_call ?_ ?_)) ?_) (legible_flatMap fun e he => ?_))
      (legible_call ?_ (legible_call ?_ .nil)))
    case refine_6 => exact legible_put (h.members fields hf e he)
    all_goals exact legible_code (by rfl)
  · refine .append (.append h.downcast (legible_call ?_ (legible_call ?_ .nil))) ?_
    all_goals exact legible_code (by rfl)

end ConverterArm

open Expression

/-! Items -/

theorem legible_converter (group : String) {type : Word} (hw : type.IsName)
    {arms : List ConverterArm} (h : ∀ a ∈ arms, a.IsLegible) :
    Legible (converter group type arms) := by
  refine .append (.append (.append (.append (.append (.append (.append (.append (legible_doc _)
    (legible_derive ?_)) ?_) (legible_word hw)) ?_) ?_) (legible_word hw)) (legible_group _ ?_))
    (legible_objectMapper ?_ hw (legible_flatMap fun a ha => (h a ha).decode)
      (legible_flatMap fun a ha => (h a ha).encode))
  case refine_5 =>
    refine .append (.append (.append legible_mustUse (legible_call ?_ .nil)) ?_) (legible_group _ ?_)
    all_goals exact legible_code (by rfl)
  all_goals exact legible_code (by rfl)

/-- All items of a converter are read if its arms are. -/
theorem sequenced_converter (group : String) {type : Word} (hw : type.IsName)
    {arms : List ConverterArm} (h : ∀ a ∈ arms, a.IsReadable) :
    Sequenced (Declaration.attributed (.upTo (n + 15)))
      (converter group type arms) := by
  have hattributes (ts : List Token) : Reads (Path.outerAttributes (.upTo (n + 15)))
      (doc s!" Converter for the `{group}` group." ++ (derive "Clone , Copy , Debug , Default" ++
        .word (.plain "pub") :: ts)) () (.word (.plain "pub") :: ts) := by
    have hderive : Accepts (Path.attributeBody (.upTo (n + 15)))
        (code "derive" ++ paren (code "Clone , Copy , Debug , Default")) [] :=
      accepts_listBody (w := .plain "derive") ⟨by decide, by decide⟩ _
    exact Attributes.reads (.cons (accepts_docBody _) (.cons hderive .nil)) rfl
  have hnew : Accepts (Declaration.implMember (.upTo (n + 14)))
      (mustUse ++ call "pub const fn new" [] ++ code "-> Self" ++ brace (code "Self")) [] :=
    Grammar.accepts_of_inside Declaration.implMember (fun _ _ _ => inferInstance) 14
      (by decide +kernel)
  have hdecode : StartsArm (arms.flatMap ConverterArm.decode ++ unmatchedArm) ∧
      Sequenced (arm (.upTo (n + 12))) (arms.flatMap ConverterArm.decode ++ unmatchedArm) :=
    sequenced_arms fun a ha => ⟨⟨_, _, rfl⟩, fun rest hr => (h a ha).reads_decode hr⟩
  have hencode : StartsArm (arms.flatMap ConverterArm.encode ++ unmatchedArm) ∧
      Sequenced (arm (.upTo (n + 12))) (arms.flatMap ConverterArm.encode ++ unmatchedArm) :=
    sequenced_arms fun a ha => ⟨⟨_, _, rfl⟩, fun rest hr => (h a ha).reads_encode hr⟩
  have hmapper := accepts_objectMapper
    "unused_variables , unused_mut , clippy :: match_single_binding" hw hdecode hencode []
  rw [List.append_nil] at hmapper
  have hstruct (ts : List Token) : Accepts (Grammar.upTo (n + 15) .item) (.word (.plain "pub") ::
      .word (.plain "struct") :: .word type :: .mark ';' .alone :: ts) ts :=
    Declaration.accepts_item_struct (d := .unit) hw.free rfl fun _ => rfl
  have hnewItem (ts : List Token) : Accepts (Grammar.upTo (n + 15) .item) (.word (.plain "impl") ::
      .word type :: (brace (mustUse ++ call "pub const fn new" [] ++ code "-> Self" ++
        brace (code "Self")) ++ ts)) ts :=
    Declaration.accepts_item_implementation
      (Declaration.reads_implementation hw (.cons hnew (Nat.zero_lt_succ _) .nil) rfl)
  have hpub : code "pub struct" = [.word (.plain "pub"), .word (.plain "struct")] := rfl
  have himpl : code "impl" = [.word (.plain "impl")] := rfl
  have hend : code ";" = [.mark ';' .alone] := rfl
  simp only [converter, hpub, himpl, hend, List.append_assoc, List.cons_append, List.nil_append]
  refine .cons (Declaration.accepts_attributed (hattributes _) (hstruct _)) ?_
    (.cons (Declaration.accepts_attributed (reads_outerAttributes_stop rfl) (hnewItem _)) ?_
      (.cons hmapper (List.length_pos_of_ne_nil (List.cons_ne_nil _ _)) .nil))
  · simp [doc, attr, bracket]
    omega
  · simp [brace]
    omega

/-! Arms of types -/

private theorem isReadable_of_members {c : Constructor} {found : List Member}
    (h : members c = .ok found) :
    ∀ m ∈ found, m.IsReadable := by
  cases c with
  | named fields =>
    intro m hm
    obtain ⟨name, -, hname⟩ := Traversal.exists_of_mem_left (Traversal.mapM_eq_ok_iff.mp h).flip hm
    unfold fieldMember at hname
    split at hname
    · rename_i w hw
      obtain ⟨text, htext⟩ := exists_identifier?_of_field? hw
      cases hname
      exact .field (isName_of_identifier? htext)
    · cases hname
  | tuple k =>
    obtain ⟨hk, rfl⟩ := members_tuple_eq_ok.mp h
    intro m hm
    obtain ⟨i, hi, rfl⟩ := List.mem_map.mp hm
    exact .place ((List.mem_range.mp hi).trans hk)
  | unit =>
    cases h
    exact fun m hm => absurd hm List.not_mem_nil

/-- An arm is readable if the text of its type is names joined by colons. -/
theorem isReadable_mappedArm {m : MappedType} {a : ConverterArm} (h : mappedArm m = .ok a)
    (hn : isNamePath m.path.text = true) : a.IsReadable := by
  obtain ⟨found, hfound, htype, -, hf, hfills⟩ := mappedArm_eq_ok h
  refine ⟨exists_namePath hn htype, fun fields hfields e he => ?_,
    fun hnamed fields hfields e he => ?_⟩
  · rw [hf] at hfields
    cases hfields
    exact isReadable_of_members hfound e.2 (List.of_mem_zip he).2
  · rw [hf] at hfields
    cases hfields
    rw [hnamed] at hfills
    generalize m.constructor.params.zip found = fields at hfills he
    cases hfills with
    | named pairs =>
      obtain ⟨p, -, rfl⟩ := List.mem_map.mp he
      exact ⟨p.2, rfl⟩

theorem isReadable_fieldlessArm {p : SchemaPath} {a : ConverterArm} (h : fieldlessArm p = .ok a)
    (hn : isNamePath p.text = true) : a.IsReadable := by
  obtain ⟨htype, -, hf, -⟩ := fieldlessArm_eq_ok h
  refine ⟨exists_namePath hn htype, fun fields hfields => ?_, fun _ fields hfields => ?_⟩
  all_goals
    rw [hf] at hfields
    cases hfields

end Switchboard.Emission
