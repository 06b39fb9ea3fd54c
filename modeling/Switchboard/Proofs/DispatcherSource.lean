import Switchboard.Proofs.Accessors
import Switchboard.Proofs.ConverterSource

/-! The source text of the dispatcher is read by the grammar of source files, if its namespace is a
path without arguments. -/

namespace Switchboard.Emission

open Source Source.Parse
open Source (Token Word)

variable {n : Nat} {rest : List Token}

open Expression

/-! Arms -/

/-- Texts with a bar in front of each. -/
def furtherKeys (keys : List String) : List Token :=
  keys.flatMap fun key => [.mark '|' .alone, .string key]

private theorem alternatives_eq (key : String) (keys : List String) :
    alternatives (key :: keys) = .string key :: furtherKeys keys := by
  induction keys generalizing key with
  | nil => rfl
  | cons next keys ih =>
    rw [alternatives, ih]
    · rfl
    · simp

/-- A text is read as a pattern in front of a bar or of an arrow. -/
theorem reads_keyPattern (key : String) (keys : List String) (rest : List Token) :
    Reads (Grammar.upTo (n + 2) .pattern) (.string key :: (furtherKeys keys ++
      .mark '=' .joint :: .mark '>' .alone :: rest)) false
      (furtherKeys keys ++ .mark '=' .joint :: .mark '>' .alone :: rest) := by
  unfold Token.string
  generalize Text.Quoted.source key = text
  cases keys with
  | nil => exact fun _ => by cbv
  | cons next keys =>
    have hbar : furtherKeys (next :: keys) ++ .mark '=' .joint :: .mark '>' .alone :: rest =
      .mark '|' .alone :: .string next :: (furtherKeys keys ++
        .mark '=' .joint :: .mark '>' .alone :: rest) := rfl
    rw [hbar]
    generalize Token.string next :: _ = after
    exact fun _ => by cbv

private theorem accepts_furtherKeys (keys : List String) (b : Bool) (rest : List Token) :
    Accepts (repeated (fun isOpen => do
      if ← sees Pattern.hasAlternative then
        mark "|"
        let _ ← (Grammar.upTo (n + 2)).pattern
        return (false, true)
      else return (isOpen, false)) b)
    (furtherKeys keys ++ .mark '=' .joint :: .mark '>' .alone :: rest)
    (.mark '=' .joint :: .mark '>' .alone :: rest) := by
  induction keys generalizing b with
  | nil => exact ⟨b, .repeated_stop (.unseen rfl .pure)⟩
  | cons next keys ih =>
    obtain ⟨c, hc⟩ := ih false
    have hstep := reads_keyPattern (n := n) next keys rest
    refine ⟨c, .repeated_more (.seen rfl (.bind (.mark rfl) (.bind hstep .pure))) ?_ hc⟩
    simp only [furtherKeys, List.flatMap_cons, List.length_append, List.length_cons]
    omega

/-- Texts with bars between them are read as the pattern of one arm. -/
theorem accepts_alternatives {keys : List String} (hne : keys ≠ []) :
    Accepts (Pattern.alternatives (.upTo (n + 2)))
      (alternatives keys ++ .mark '=' .joint :: .mark '>' .alone :: rest)
      (.mark '=' .joint :: .mark '>' .alone :: rest) := by
  obtain ⟨key, keys, rfl⟩ := List.exists_cons_of_ne_nil hne
  obtain ⟨b, hb⟩ := accepts_furtherKeys (n := n) keys (false && !false) rest
  rw [alternatives_eq]
  exact ⟨b, .bind (.mark?_of_false rfl) (.bind (reads_keyPattern key keys rest) hb)⟩

/-- The object that a method is called on. -/
def selfPath : NamePath := ⟨false, .plain "self", [], by decide, by decide, .inr (by decide)⟩

/-- The type that a method is of. -/
def selfTypePath : NamePath := ⟨false, .plain "Self", [], by decide, by decide, .inr (by decide)⟩

namespace RouteArm

private theorem exists_literal {function arguments : String} {a : RouteArm} (hne : a.keys ≠ []) :
    ∃ text ts, a.tokens function arguments = .literal text :: ts := by
  obtain ⟨key, keys, hk⟩ := List.exists_cons_of_ne_nil hne
  exact ⟨_, _, by rw [tokens, hk, alternatives_eq]; rfl⟩

/-- An arm that hands over to the converter of its group is read if the function that takes it over
is, and the arguments after the converter. -/
theorem reads_of {function arguments : String} {more : List Token}
    {p : NamePath} (hf : code (":: typemux :: core :: ObjectMapper :: " ++ function) = p.tokens)
    (ha : code arguments = .mark ',' .alone :: more) (hm : Listed (Grammar.upTo (n + 10)).expr more)
    {a : RouteArm} (hne : a.keys ≠ []) (hw : a.method.IsName) :
    Reads (arm (.upTo (n + 12))) (a.tokens function arguments ++ rest) () rest := by
  have hself (ts : List Token) : Reads (atom (.upTo (n + 8)) true)
      (.word (.plain "self") :: .mark '.' .alone :: ts) other (.mark '.' .alone :: ts) :=
    reads_pathAtom selfPath rfl rfl rfl
  have hconverter : Reads (Grammar.upTo (n + 10) (.expr true)) (.word (.plain "self") ::
      .mark '.' .alone :: .word a.method :: .group .paren [] :: .mark ',' .alone :: more) other
      (.mark ',' .alone :: more) :=
    reads_expr rfl (hself _) (reads_trailers_method hw.free Listed.nil.accepts
      (reads_trailers_stop (.comma more) false)) (.comma more)
  have hlist := Listed.cons hconverter.accepts (by simp) hm
  have harrow : code "=>" = [.mark '=' .joint, .mark '>' .alone] := rfl
  have hcomma : code "," = [.mark ',' .alone] := rfl
  have hfront : code "self ." = [.word (.plain "self"), .mark '.' .alone] := rfl
  have hstart : StartsArm (a.tokens function arguments ++ rest) := by
    have hliteral : ∃ text ts, a.tokens function arguments = .literal text :: ts :=
      exists_literal hne
    obtain ⟨text, ts, ht⟩ := hliteral
    rw [ht]
    exact .literal _ _
  simp only [tokens, harrow, hcomma, hfront, ha, hf, call, paren, List.append_assoc,
    List.cons_append, List.nil_append] at hstart ⊢
  exact reads_arm_expression hstart (accepts_alternatives hne) (reads_leadingPath (.tokens p _)
    (reads_pathAtom p rfl rfl rfl) (reads_trailers_call hlist.accepts
      (reads_trailers_stop (.comma rest) false)) (.comma rest))

private theorem reads_decode {a : RouteArm} (hne : a.keys ≠ []) (hw : a.method.IsName) : Reads
    (arm (.upTo (n + 12))) (a.tokens "decode_one" ", type_name , record" ++ rest) () rest := by
  have hf : code (":: typemux :: core :: ObjectMapper :: " ++ "decode_one") =
    (objectMapperPath.extend [.plain "decode_one"] (by decide) (by decide)).tokens := rfl
  have hlist : Listed (Grammar.upTo (n + 10)).expr (code "type_name , record") :=
    .cons (reads_pathExpr (.single (.plain "type_name") ⟨by decide, by decide⟩) (.comma _)).accepts
      (by decide) (.last (reads_pathExpr (.single (.plain "record") ⟨by decide, by decide⟩)
        .nil).accepts (by decide))
  exact reads_of hf rfl hlist hne hw

private theorem reads_encode {a : RouteArm} (hne : a.keys ≠ []) (hw : a.method.IsName) : Reads
    (arm (.upTo (n + 12))) (a.tokens "encode_one_as" ", object , type_name" ++ rest) () rest := by
  have hf : code (":: typemux :: core :: ObjectMapper :: " ++ "encode_one_as") =
    (objectMapperPath.extend [.plain "encode_one_as"] (by decide) (by decide)).tokens := rfl
  have hlist : Listed (Grammar.upTo (n + 10)).expr (code "object , type_name") :=
    .cons (reads_pathExpr (.single (.plain "object") ⟨by decide, by decide⟩) (.comma _)).accepts
      (by decide) (.last (reads_pathExpr (.single (.plain "type_name") ⟨by decide, by decide⟩)
        .nil).accepts (by decide))
  exact reads_of hf rfl hlist hne hw

end RouteArm


/-! Slots and methods -/

/-- That the names of a group can be read where they are written. -/
structure Accessor.IsReadable (a : Accessor) : Prop where
  field : a.field.IsName
  method : a.method.IsName
  module : a.module.IsName
  converter : a.converter.IsName

theorem isReadable_accessor {g : Group} {a : Accessor} (h : accessor g = .ok a) : a.IsReadable := by
  obtain ⟨-, hfield, hmethod, hmodule, hconverter⟩ := accessor_eq_ok_iff.mp h
  exact ⟨isName_of_identifier? hfield, isName_of_identifier? hmethod,
    isName_of_identifier? hmodule, isName_of_identifier? hconverter⟩

namespace Accessor

variable {a : Accessor}

/-- The converter type is a path without arguments if the namespace is one. -/
theorem IsReadable.exists_typePath (h : a.IsReadable) (mount : NamePath) :
    ∃ p : NamePath, a.typePath mount.tokens = p.tokens := by
  have hnames : ∀ w ∈ [.plain "mapper", a.module, a.converter], w.IsName := by
    have hmapper : (Word.plain "mapper").IsName := ⟨by decide, by decide⟩
    simp [hmapper, h.module, h.converter]
  refine ⟨mount.extend _ (fun w hw => Word.isSegment_of_isKeyword (hnames w hw).free)
    (fun w hw => (hnames w hw).legible), ?_⟩
  rw [NamePath.tokens_extend, typePath]
  simp only [List.append_assoc]
  rfl

/-- A slot is read as a field up to its comma. -/
theorem IsReadable.accepts_slot (h : a.IsReadable) (mount : NamePath) :
    Accepts (Declaration.namedField (.upTo (n + 2))) ([.word a.field] ++
      code ": :: typemux :: core :: ConverterSlot <" ++ a.typePath mount.tokens ++ code ">" ++
      .mark ',' .alone :: rest) (.mark ',' .alone :: rest) := by
  obtain ⟨p, hp⟩ := h.exists_typePath mount
  have hslot : Reads (Path.unqualified (.upTo (n + 1)) false) (corePath.tokens ++
      .mark ':' .joint :: .mark ':' .alone :: .word (.plain "ConverterSlot") ::
        .mark '<' .alone :: (p.tokens ++ .mark '>' .alone :: .mark ',' .alone :: rest))
      ⟨false, true, 3, false, false, false⟩ (.mark ',' .alone :: rest) :=
    Path.reads_pathArguments corePath (by decide) p false rfl
  have htype : Reads (Grammar.upTo (n + 2) (.type true)) (corePath.tokens ++
      .mark ':' .joint :: .mark ':' .alone :: .word (.plain "ConverterSlot") ::
        .mark '<' .alone :: (p.tokens ++ .mark '>' .alone :: .mark ',' .alone :: rest)) .path
      (.mark ',' .alone :: rest) := Types.reads_typeRule (.tokens corePath _) hslot rfl rfl true
  have hfront : code ": :: typemux :: core :: ConverterSlot <" = .mark ':' .alone ::
      (corePath.tokens ++ [.mark ':' .joint, .mark ':' .alone, .word (.plain "ConverterSlot"),
        .mark '<' .alone]) := rfl
  have hclose : code ">" = [.mark '>' .alone] := rfl
  have hkey {k : String} (hk : k ∈ Word.keywords) (ts : List Token) :
      Ahead.key k (.word a.field :: ts) = false := Ahead.key_eq_false h.field.free hk ts
  simp only [hp, hfront, hclose, List.append_assoc, List.cons_append, List.nil_append]
  refine ⟨a.field, .bind (reads_outerAttributes_stop rfl) ?_⟩
  refine .bind (.bind (.key?_of_false (hkey (by decide) _)) .pure) ?_
  refine .unseen (hkey (by decide) _) (.bind (.ident h.field.free _) (.bind (.mark rfl) ?_))
  exact .unseen (by rfl) (.bind htype .pure)

/-- A slot has a first value. -/
theorem IsReadable.isField_initial (h : a.IsReadable) : IsField (.upTo (n + 6)) a.initial := by
  refine ⟨a.field, call ":: typemux :: core :: ConverterSlot :: new" [], rfl, h.field.free, ?_⟩
  have hpath : code ":: typemux :: core :: ConverterSlot :: new" = (corePath.extend
    [.plain "ConverterSlot", .plain "new"] (by decide) (by decide)).tokens := rfl
  intro rest
  rw [call, hpath, paren, List.append_assoc, List.singleton_append]
  exact ⟨other, reads_expr (isPrefixed_of_startsPath (.tokens _ _)) (reads_pathAtom _ rfl rfl rfl)
    (reads_trailers_call Listed.nil.accepts (reads_trailers_stop (.comma rest) false))
    (.comma rest)⟩

/-- The converter of a group is made when it is first asked for. -/
theorem IsReadable.block_method (h : a.IsReadable) (mount : NamePath) :
    Statement.Block (.upTo (n + 4)) (code "self ." ++ [.word a.field] ++
      call ". get_or_init" (a.typePath mount.tokens ++ code ":: new")) := by
  obtain ⟨p, hp⟩ := h.exists_typePath mount
  have hnew : ∃ q : NamePath, p.tokens ++ code ":: new" = q.tokens :=
    ⟨p.extend [.plain "new"] (by decide) (by decide),
      (p.tokens_extend [.plain "new"] (by decide) (by decide)).symm⟩
  obtain ⟨q, hq⟩ := hnew
  have hmake : Reads (Grammar.upTo (n + 2) (.expr true)) (q.tokens ++ []) other [] :=
    reads_pathExpr q .nil
  rw [List.append_nil] at hmake
  have hne : q.tokens ≠ [] := by
    rw [← hq]
    exact List.append_ne_nil_of_right_ne_nil _ (by decide)
  have hself (ts : List Token) : Reads (atom (.upTo (n + 2)) true)
      (.word (.plain "self") :: .mark '.' .alone :: ts) other (.mark '.' .alone :: ts) :=
    reads_pathAtom selfPath rfl rfl rfl
  have hcall := reads_trailers_method (b := false) (w := .plain "get_or_init") (by decide)
    (Listed.last hmake.accepts hne).accepts (reads_trailers_stop .nil false)
  have htrailers := reads_trailers_member (b := false) (reads_member h.field.free rfl rfl) le_rfl
    hcall
  have hbody : code "self ." ++ [.word a.field] ++
      call ". get_or_init" (p.tokens ++ code ":: new") = [.word (.plain "self"), .mark '.' .alone,
        .word a.field, .mark '.' .alone, .word (.plain "get_or_init"), .group .paren q.tokens] := by
    rw [hq]
    rfl
  rw [hp, hbody]
  refine .last (List.cons_ne_nil _ _) rfl (Statement.accepts_one_value (by rfl) ⟨other, ?_⟩)
  exact reads_leadingPath (.word _ (by decide) (by decide)) (hself _) htrailers .nil

private theorem IsReadable.reads_signature (h : a.IsReadable) (p : NamePath) (body : List Token) :
    Reads (Declaration.signature (.upTo (n + 3)) false) (code "fn" ++ [.word a.method] ++
      paren (code "& self") ++ code "-> &" ++ p.tokens ++ .group .brace body :: rest) ()
      (.group .brace body :: rest) := by
  have harguments : Accepts (Declaration.arguments (.upTo (n + 3))) (code "& self") [] :=
    Grammar.accepts_of_inside Declaration.arguments (fun _ _ _ => inferInstance) 3
      (by decide +kernel)
  have hfront : code "fn" = [.word (.plain "fn")] := rfl
  have harrow : code "-> &" = [.mark '-' .joint, .mark '>' .alone, .mark '&' .alone] := rfl
  simp only [hfront, harrow, paren, List.cons_append, List.nil_append]
  exact Declaration.reads_signature false h.method.free harguments
    (Declaration.accepts_returned (Types.reads_reference p rfl true)) rfl

/-- The method of a group is read among the members of an implementation. -/
theorem IsReadable.reads_method (h : a.IsReadable) (mount : NamePath) :
    Reads (Declaration.implMember (.upTo (n + 5))) (a.methodTokens mount.tokens ++ rest) () rest := by
  obtain ⟨p, hp⟩ := h.exists_typePath mount
  have hattributes (ts : List Token) : Reads (Path.outerAttributes (.upTo (n + 5)))
      (doc s!" Converter for the `{a.group}` group, built on first use." ++ (mustUse ++
        .word (.plain "pub") :: ts)) () (.word (.plain "pub") :: ts) :=
    Attributes.reads (.cons (accepts_docBody _) (.cons accepts_mustUseBody .nil)) rfl
  have hblock := h.block_method (n := n) mount
  have hpub : code "pub fn" = .word (.plain "pub") :: code "fn" := rfl
  have hvisible (ts : List Token) : Reads Declaration.visibility
      (.word (.plain "pub") :: (code "fn" ++ ts)) true (code "fn" ++ ts) := fun _ => rfl
  have hfunction : Reads (Declaration.function (.upTo (n + 5)) false) (code "fn" ++
      [.word a.method] ++ paren (code "& self") ++ code "-> &" ++ p.tokens ++
      .group .brace _ :: rest) () rest :=
    Declaration.reads_function (h.reads_signature p _) hblock rfl
  simp only [methodTokens, hpub, hp, brace, List.append_assoc, List.cons_append,
    List.nil_append] at hfunction ⊢
  exact Declaration.reads_implMember (hattributes _) (hvisible _) (by rfl) (by rfl) hfunction

end Accessor

/-! Items -/

section

variable {type : Word} {accessors : List Accessor} (mount : NamePath)

/-- The struct with a slot for each group. -/
theorem accepts_slots (hw : type.IsName) (h : ∀ a ∈ accessors, a.IsReadable) :
    Accepts (Grammar.upTo (n + 16) .item) (code "pub struct" ++ ([.word type] ++
      (brace (accessors.flatMap (Accessor.slot mount.tokens)) ++ rest))) rest := by
  have hcomma : code "> ," = code ">" ++ [.mark ',' .alone] := rfl
  have hslots : Listed (Declaration.namedField (.upTo (n + 14)))
      (accessors.flatMap (Accessor.slot mount.tokens)) := by
    have hslot : Accessor.slot mount.tokens = fun a => ([.word a.field] ++
        code ": :: typemux :: core :: ConverterSlot <" ++ a.typePath mount.tokens ++ code ">") ++
        [.mark ',' .alone] := by
      funext a
      simp only [Accessor.slot, hcomma, List.append_assoc]
    rw [hslot]
    exact .of_flatMap fun a ha => ⟨List.cons_ne_nil _ _, fun rest => (h a ha).accepts_slot mount⟩
  obtain ⟨names, hnames⟩ := hslots.accepts
  have hfields : Reads (Declaration.structBody (.upTo (n + 15)))
      (.group .brace (accessors.flatMap (Accessor.slot mount.tokens)) :: rest) (.named names)
      rest :=
    .bind (Declaration.reads_no_clauses rfl) (.unseen rfl (.bind (.mark?_of_false rfl)
      (.bind (a := names) (.group hnames rest) .pure)))
  exact Declaration.accepts_item_struct hw.free rfl hfields

/-- The functions that are the dispatcher's own. -/
theorem accepts_ownFunctions (hw : type.IsName) (h : ∀ a ∈ accessors, a.IsReadable) :
    Accepts (Grammar.upTo (n + 16) .item) (code "impl" ++ ([.word type] ++ (brace
      (mustUse ++ call "pub const fn new" [] ++ code "-> Self" ++
        brace (code "Self" ++ brace (accessors.flatMap Accessor.initial)) ++
        accessors.flatMap (Accessor.methodTokens mount.tokens)) ++ rest))) rest := by
  have hpath : Reads (Path.unqualified (.upTo (n + 12)) true) (code "Self" ++
      brace (accessors.flatMap Accessor.initial)) (NamePath.form false 1)
      (brace (accessors.flatMap Accessor.initial)) := Path.reads_namePath selfTypePath rfl
  have hs : StartsPath (code "Self" ++ brace (accessors.flatMap Accessor.initial)) :=
    .word _ (by decide) (by decide)
  have hself : Reads (Grammar.upTo (n + 14) .leadingExpr) (code "Self" ++
      brace (accessors.flatMap Accessor.initial)) braced [] :=
    reads_leadingPath hs (reads_atom hs (reads_struct hs hpath (reads_fields fun a ha =>
      (h a ha).isField_initial))) (reads_trailers_stop .nil true) .nil
  have hblock : Statement.Block (.upTo (n + 14)) (code "Self" ++
      brace (accessors.flatMap Accessor.initial)) :=
    .last (List.cons_ne_nil _ _) rfl (Statement.accepts_one_value (by rfl) hself.accepts)
  have hsignature (body rest : List Token) : Reads (Declaration.signature (.upTo (n + 15)) false)
      (code "const fn new" ++ (paren [] ++ (code "-> Self" ++ .group .brace body :: rest))) ()
      (.group .brace body :: rest) := by
    have hfront : code "const fn new" =
      [.word (.plain "const"), .word (.plain "fn"), .word (.plain "new")] := rfl
    have harrow : code "-> Self" = .mark '-' .joint :: .mark '>' .alone :: selfTypePath.tokens := rfl
    have hnone : Accepts (Declaration.arguments (.upTo (n + 15))) [] [] := ⟨(), fun _ => rfl⟩
    rw [hfront, harrow]
    exact Declaration.reads_signature true (by decide) hnone
      (Declaration.accepts_returned (Types.reads_namePath selfTypePath rfl true)) rfl
  have hattribute (ts : List Token) : Reads (Path.outerAttributes (.upTo (n + 15)))
      (mustUse ++ .word (.plain "pub") :: ts) () (.word (.plain "pub") :: ts) :=
    Attributes.reads (.cons accepts_mustUseBody .nil) rfl
  have hvisible (ts : List Token) : Reads Declaration.visibility
      (.word (.plain "pub") :: (code "const fn new" ++ ts)) true (code "const fn new" ++ ts) :=
    fun _ => rfl
  have hnew (rest : List Token) : Reads (Declaration.implMember (.upTo (n + 15)))
      (mustUse ++ .word (.plain "pub") :: (code "const fn new" ++ (paren [] ++ (code "-> Self" ++
        .group .brace (code "Self" ++ brace (accessors.flatMap Accessor.initial)) :: rest)))) ()
      rest := Declaration.reads_implMember (hattribute _) (hvisible _) rfl rfl
        (Declaration.reads_function (hsignature _ _) hblock rfl)
  have hmethods : Sequenced (Declaration.implMember (.upTo (n + 15)))
      (accessors.flatMap (Accessor.methodTokens mount.tokens) ++ []) :=
    (Sequenced.of_flatMap (I := fun _ => True) (fun a ha rest _ =>
      ⟨trivial, List.cons_ne_nil _ _, ((h a ha).reads_method mount).accepts⟩) trivial .nil).2
  rw [List.append_nil] at hmethods
  have hmembers := Sequenced.cons (hnew _).accepts (by simp; omega) hmethods
  have hfront : call "pub const fn new" [] =
    .word (.plain "pub") :: (code "const fn new" ++ paren []) := rfl
  simp only [hfront, brace, List.append_assoc, List.cons_append, List.nil_append] at hmembers ⊢
  exact Declaration.accepts_item_implementation (Declaration.reads_implementation hw hmembers rfl)

def defaultPath : NamePath :=
  .global (.plain "std") [.plain "default", .plain "Default"] (by decide) (by decide)

/-- The function that makes a dispatcher where a default is asked for. -/
theorem accepts_default (hw : type.IsName) : Accepts (Grammar.upTo (n + 16) .item)
    (code "impl :: std :: default :: Default for" ++ ([.word type] ++ (brace
      (call "fn default" [] ++ code "-> Self" ++ brace (call "Self :: new" [])) ++ rest))) rest := by
  have hmembers (rest : List Token) : Accepts (Declaration.members (.upTo (n + 15))
      (Declaration.implMember (.upTo (n + 15)))) (.group .brace (call "fn default" [] ++
        code "-> Self" ++ brace (call "Self :: new" [])) :: rest) rest := by
    have hdefault : Accepts (Declaration.implMember (.upTo (n + 15)))
        (call "fn default" [] ++ code "-> Self" ++ brace (call "Self :: new" [])) [] :=
      Grammar.accepts_of_inside Declaration.implMember (fun _ _ _ => inferInstance) 15
        (by decide +kernel)
    exact Declaration.accepts_members (.cons hdefault (Nat.zero_lt_succ _) .nil) rfl rest
  have hfront : code "impl :: std :: default :: Default for" =
    .word (.plain "impl") :: (defaultPath.tokens ++ [.word (.plain "for")]) := rfl
  rw [hfront]
  simp only [brace, List.append_assoc, List.cons_append, List.nil_append] at hmembers ⊢
  exact Declaration.accepts_item_implementation
    (Declaration.reads_implementation_for defaultPath hw (hmembers rest))

/-- All items of a dispatcher are read if the namespace is a path without arguments. -/
theorem sequenced_dispatcherType (hw : type.IsName) (h : ∀ a ∈ accessors, a.IsReadable)
    {decode encode : List RouteArm} (hd : ∀ a ∈ decode, a.keys ≠ [] ∧ a.method.IsName)
    (he : ∀ a ∈ encode, a.keys ≠ [] ∧ a.method.IsName) :
    Sequenced (Declaration.attributed (.upTo (n + 16)))
      (dispatcherType type mount.tokens accessors decode encode) := by
  have hattributes (ts : List Token) : Reads (Path.outerAttributes (.upTo (n + 16)))
      (rawDoc " Routes every schema type to the converter of the group that owns" ++
        (rawDoc " it. Converters are built on first use and kept for the lifetime" ++
          (rawDoc " of the dispatcher." ++ (derive "Debug" ++ (code "pub struct" ++ ts))))) ()
      (code "pub struct" ++ ts) := by
    have hderive : Accepts (Path.attributeBody (.upTo (n + 16)))
        (code "derive" ++ paren (code "Debug")) [] :=
      accepts_listBody (w := .plain "derive") ⟨by decide, by decide⟩ _
    exact Attributes.reads (.cons (accepts_docBody _) (.cons (accepts_docBody _)
      (.cons (accepts_docBody _) (.cons hderive .nil)))) rfl
  have hdecode : StartsArm (decode.flatMap (RouteArm.tokens "decode_one" ", type_name , record") ++
      unmatchedArm) ∧ Sequenced (arm (.upTo (n + 13)))
        (decode.flatMap (RouteArm.tokens "decode_one" ", type_name , record") ++ unmatchedArm) :=
    sequenced_arms fun a ha => ⟨RouteArm.exists_literal (hd a ha).1, fun rest _ =>
      RouteArm.reads_decode (hd a ha).1 (hd a ha).2⟩
  have hencode : StartsArm (encode.flatMap (RouteArm.tokens "encode_one_as" ", object , type_name") ++
      unmatchedArm) ∧ Sequenced (arm (.upTo (n + 13)))
        (encode.flatMap (RouteArm.tokens "encode_one_as" ", object , type_name") ++ unmatchedArm) :=
    sequenced_arms fun a ha => ⟨RouteArm.exists_literal (he a ha).1, fun rest _ =>
      RouteArm.reads_encode (he a ha).1 (he a ha).2⟩
  have hmapper (rest : List Token) : Accepts (Declaration.attributed (.upTo (n + 16)))
      (objectMapper "unused_variables , clippy :: match_single_binding" type _ _ ++ rest) rest :=
    accepts_objectMapper _ hw hdecode hencode rest
  simp only [dispatcherType, List.append_assoc]
  refine .cons (Declaration.accepts_attributed (hattributes _) (accepts_slots mount hw h)) ?_
    (.cons (Declaration.accepts_attributed (reads_outerAttributes_stop rfl)
      (accepts_ownFunctions mount hw h)) ?_
    (.cons (Declaration.accepts_attributed (reads_outerAttributes_stop rfl) (accepts_default hw)) ?_
    (.cons (hmapper _) ?_ (.cons (accepts_batchMapper hw) ?_ .nil))))
  case refine_4 => exact length_lt_append (List.cons_ne_nil _ _)
  case refine_5 => exact List.length_pos_of_ne_nil (List.cons_ne_nil _ _)
  all_goals
    simp only [brace, List.length_append, List.length_cons, List.length_nil]
    omega

end

/-! Texts -/

namespace Accessor.IsReadable

variable {a : Accessor} (mount : NamePath)

private theorem legible_typePath (h : a.IsReadable) : Legible (a.typePath mount.tokens) := by
  obtain ⟨p, hp⟩ := h.exists_typePath mount
  exact hp ▸ p.legible_tokens

private theorem legible_slot (h : a.IsReadable) : Legible (a.slot mount.tokens) :=
  .append (.append (.append (legible_word h.field) (legible_code (by rfl)))
    (h.legible_typePath mount)) (legible_code (by rfl))

private theorem legible_initial (h : a.IsReadable) : Legible a.initial :=
  .append (.append (legible_word h.field) (legible_call (legible_code (by rfl)) .nil))
    (legible_code (by rfl))

private theorem legible_method (h : a.IsReadable) : Legible (a.methodTokens mount.tokens) := by
  refine .append (.append (.append (.append (.append (.append (.append (legible_doc _)
    legible_mustUse) ?_) (legible_word h.method)) (legible_group _ ?_)) ?_)
    (h.legible_typePath mount)) (legible_group _ (.append (.append ?_ (legible_word h.field))
      (legible_call ?_ ((h.legible_typePath mount).append ?_))))
  all_goals exact legible_code (by rfl)

end Accessor.IsReadable

private theorem legible_alternatives (keys : List String) : Legible (alternatives keys) := by
  cases keys with
  | nil => exact .nil
  | cons key keys =>
    rw [alternatives_eq]
    exact (legible_string key).append (legible_flatMap fun key _ =>
      .alone (by decide) (legible_string key))

private theorem RouteArm.legible_tokens {function arguments : String}
    (hf : Legible (code (":: typemux :: core :: ObjectMapper :: " ++ function)))
    (ha : Legible (code arguments)) {a : RouteArm} (hw : a.method.IsName) :
    Legible (a.tokens function arguments) := by
  refine .append (.append (.append (legible_alternatives _) ?_) (legible_call hf
    (.append (.append (.append ?_ (legible_word hw)) (legible_group _ .nil)) ha))) ?_
  all_goals exact legible_code (by rfl)

theorem legible_dispatcherType {type : Word} (hw : type.IsName) (mount : NamePath)
    {accessors : List Accessor} (h : ∀ a ∈ accessors, a.IsReadable) {decode encode : List RouteArm}
    (hd : ∀ a ∈ decode, a.method.IsName) (he : ∀ a ∈ encode, a.method.IsName) :
    Legible (dispatcherType type mount.tokens accessors decode encode) := by
  have hslots := legible_flatMap fun a ha => (h a ha).legible_slot mount
  have hinitials := legible_flatMap fun a ha => (h a ha).legible_initial
  have hmethods := legible_flatMap fun a ha => (h a ha).legible_method mount
  have hdecode : Legible (decode.flatMap (RouteArm.tokens "decode_one" ", type_name , record")) :=
    legible_flatMap fun a ha => RouteArm.legible_tokens
      (by simpa only [String.reduceAppend] using legible_code (by rfl)) (legible_code (by rfl))
      (hd a ha)
  have hencode :
      Legible (encode.flatMap (RouteArm.tokens "encode_one_as" ", object , type_name")) :=
    legible_flatMap fun a ha => RouteArm.legible_tokens
      (by simpa only [String.reduceAppend] using legible_code (by rfl)) (legible_code (by rfl))
      (he a ha)
  refine .append (.append (.append (.append (.append (.append (.append (.append (.append (.append
    (.append (.append (.append (.append ?_ ?_) ?_) (legible_derive ?_)) ?_) (legible_word hw))
    (legible_group _ hslots)) ?_) (legible_word hw)) (legible_group _ ?_)) ?_) (legible_word hw))
    (legible_group _ ?_)) (legible_objectMapper ?_ hw hdecode hencode)) (legible_batchMapper hw)
  case refine_1 | refine_2 | refine_3 =>
    exact legible_rawDoc (List.all_iff_forall_prop.mp (by rfl))
  case refine_7 =>
    refine .append (.append (.append (.append legible_mustUse (legible_call ?_ .nil)) ?_)
      (legible_group _ (.append ?_ (legible_group _ hinitials)))) hmethods
    all_goals exact legible_code (by rfl)
  case refine_9 =>
    refine .append (.append (legible_call ?_ .nil) ?_) (legible_group _ (legible_call ?_ .nil))
    all_goals exact legible_code (by rfl)
  all_goals exact legible_code (by rfl)

end Switchboard.Emission
