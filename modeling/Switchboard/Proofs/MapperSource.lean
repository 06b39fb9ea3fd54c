import Switchboard.Emission.Dispatcher
import Switchboard.Proofs.CodePieces
import Switchboard.Proofs.ItemReading
import Switchboard.Proofs.Nesting

/-! The items by which a type converts objects are source text that is read again: the one for single
objects if its arms are, and the one for many as it is. -/

namespace Switchboard.Emission

open Source Source.Parse
open Source (Token Word)

variable {n : Nat}

/-! Traits -/

def objectMapperPath : NamePath :=
  .global (.plain "typemux") [.plain "core", .plain "ObjectMapper"] (by decide) (by decide)

def batchMapperPath : NamePath :=
  .global (.plain "typemux") [.plain "core", .plain "BatchMapper"] (by decide) (by decide)

/-! Attributes -/

/-- Attributes in a row up to what is left of the tokens. -/
inductive Attributes (g : Grammar) (rest : List Token) : List Token → Prop
  | nil : Attributes g rest rest
  | cons {body ts : List Token} : Accepts (Path.attributeBody g) body [] → Attributes g rest ts →
      Attributes g rest (attr body ++ ts)

theorem Attributes.reads {g : Grammar} {ts rest : List Token} (h : Attributes g rest ts)
    (hr : Ahead.mark "#" rest = false) : Reads (Path.outerAttributes g) ts () rest := by
  refine .next ?_ .pure
  induction h with
  | nil => exact .repeated_stop (.unseen hr .pure)
  | @cons body ts hb _ ih =>
    obtain ⟨_, hbody⟩ := hb
    have hone : Reads (Path.oneAttribute g) (attr body ++ ts) () ts :=
      .next (.mark rfl) (.group hbody _)
    exact .repeated_more (.seen rfl (.next hone .pure)) (length_lt_append (List.cons_ne_nil _ _)) ih

variable {g : Grammar}

theorem accepts_docBody (text : String) :
    Accepts (Path.attributeBody g) (code "doc =" ++ [.literal text]) [] :=
  ⟨(), fun _ => rfl⟩

theorem accepts_mustUseBody : Accepts (Path.attributeBody g) (code "must_use") [] :=
  ⟨(), fun _ => rfl⟩

theorem accepts_listBody {w : Word} (hw : w.IsName) (names : List Token) :
    Accepts (Path.attributeBody g) (.word w :: paren names) [] := by
  have hstands : Ahead.ident (.word w :: paren names) = true := by
    simp [Ahead.ident, Ahead.word?, hw.free]
  have hplain : Reads Path.plain (.word w :: paren names) () (paren names) :=
    .bind (.mark?_of_false rfl) (.bind (.repeated_stop (.seen (by rw [hstands]; rfl)
      (.bind (.anyWord _ _) (.bind (.mark?_of_false rfl) .pure)))) (.require rfl))
  exact ⟨(), .bind (.key?_of_false (Ahead.key_eq_false hw.free (by decide) _))
    (.next hplain (.seen rfl (.after ⟨_, fun _ => rfl⟩ .pure)))⟩

/-! Mappers of single objects -/

private theorem legible_chooseArm {arms : List Token} (h : Legible arms) :
    Legible (chooseArm arms) :=
  legible_group _ ((legible_code (by rfl)).append (legible_group _ (h.append legible_unmatchedArm)))

theorem legible_objectMapper {lints : String} (hl : Legible (code lints)) {type : Word}
    (hw : type.IsName) {decodeArms encodeArms : List Token} (hd : Legible decodeArms)
    (he : Legible encodeArms) : Legible (objectMapper lints type decodeArms encodeArms) := by
  refine .append (.append (.append (legible_allow hl) (legible_code (by rfl))) (legible_word hw))
    (legible_group _ ?_)
  -- what stands around the two bodies is the same in every mapper
  refine .append (.append (.append (.append (.append (.append (.append (.append (.append (.append ?_
    (legible_group _ ?_)) ?_) ?_) ?_) (legible_chooseArm hd)) ?_) (legible_group _ ?_)) ?_) ?_)
    (legible_chooseArm he)
  all_goals exact legible_code (by rfl)

open Expression

/-- Arms that choose by texts, with the one for all other names at the end. -/
theorem sequenced_arms {ξ : Type} {tokens : ξ → List Token} {xs : List ξ}
    (h : ∀ x ∈ xs, (∃ text ts, tokens x = .literal text :: ts) ∧ ∀ rest, StartsArm rest →
      Reads (arm (.upTo (n + 12))) (tokens x ++ rest) () rest) :
    StartsArm (xs.flatMap tokens ++ unmatchedArm) ∧
      Sequenced (arm (.upTo (n + 12))) (xs.flatMap tokens ++ unmatchedArm) := by
  have hunmatched : Accepts (arm (.upTo (n + 12))) unmatchedArm [] :=
    Grammar.accepts_of_inside arm (fun _ _ _ => inferInstance) 12 (by decide +kernel)
  refine Sequenced.of_flatMap (fun x hx rest hr => ?_) (.word _ _)
    (.cons hunmatched (Nat.zero_lt_succ _) .nil)
  obtain ⟨⟨text, ts, ht⟩, ha⟩ := h x hx
  refine ⟨?_, ?_, (ha rest hr).accepts⟩
  · rw [ht]
    exact .literal text _
  · rw [ht]
    exact List.cons_ne_nil _ _

set_option maxRecDepth 4000 in
private theorem reads_decode_signature (mid rest : List Token) : Reads
    (Declaration.signature (.upTo (n + 8)) false) (code "fn decode_one" ++
      (paren (code "& self , type_name : & str , record : :: typemux :: core :: Record ,") ++
      (code "-> :: std :: result :: Result <" ++
      (code ":: std :: boxed :: Box < dyn :: typemux :: core :: Payload > ," ++
      (code ":: typemux :: core :: MapperError , >" ++ .group .brace mid :: rest))))) ()
    (.group .brace mid :: rest) := by
  have harguments : Accepts (Declaration.arguments (.upTo (n + 8)))
      (code "& self , type_name : & str , record : :: typemux :: core :: Record ,") [] := by
    rw [code_ofList]
    exact Grammar.accepts_of_inside Declaration.arguments (fun _ _ _ => inferInstance) 8
      (by decide +kernel)
  have hfront : code "fn decode_one" = [.word (.plain "fn"), .word (.plain "decode_one")] := rfl
  have harrow : code "-> :: std :: result :: Result <" =
    .mark '-' .joint :: .mark '>' .alone :: code ":: std :: result :: Result <" := rfl
  simp only [hfront, harrow, paren, List.cons_append, List.nil_append]
  refine Declaration.reads_signature false (by decide) harguments
    (Declaration.accepts_returned ⟨.path, fun _ => ?_⟩) rfl
  repeat rw [code_ofList]
  cbv

set_option maxRecDepth 4000 in
private theorem reads_encode_signature (mid rest : List Token) : Reads
    (Declaration.signature (.upTo (n + 8)) false) (code "fn encode_one_as" ++
      (paren (code "& self , object : & dyn :: typemux :: core :: Payload , type_name : & str ,") ++
      (code "-> :: std :: result :: Result < :: typemux :: core :: Record ," ++
      (code ":: typemux :: core :: MapperError >" ++ .group .brace mid :: rest)))) ()
    (.group .brace mid :: rest) := by
  have harguments : Accepts (Declaration.arguments (.upTo (n + 8)))
      (code "& self , object : & dyn :: typemux :: core :: Payload , type_name : & str ,") [] := by
    rw [code_ofList]
    exact Grammar.accepts_of_inside Declaration.arguments (fun _ _ _ => inferInstance) 8
      (by decide +kernel)
  have hfront : code "fn encode_one_as" =
    [.word (.plain "fn"), .word (.plain "encode_one_as")] := rfl
  have harrow : code "-> :: std :: result :: Result < :: typemux :: core :: Record ," =
    .mark '-' .joint :: .mark '>' .alone ::
      code ":: std :: result :: Result < :: typemux :: core :: Record ," := rfl
  simp only [hfront, harrow, paren, List.cons_append, List.nil_append]
  refine Declaration.reads_signature false (by decide) harguments
    (Declaration.accepts_returned ⟨.path, fun _ => ?_⟩) rfl
  repeat rw [code_ofList]
  cbv

/-- The item by which a type converts single objects is read if its arms are. -/
theorem accepts_objectMapper (lints : String) {type : Word} (hw : type.IsName)
    {decodeArms encodeArms : List Token}
    (hd : StartsArm (decodeArms ++ unmatchedArm) ∧
      Sequenced (arm (.upTo (n + 12))) (decodeArms ++ unmatchedArm))
    (he : StartsArm (encodeArms ++ unmatchedArm) ∧
      Sequenced (arm (.upTo (n + 12))) (encodeArms ++ unmatchedArm)) (rest : List Token) :
    Accepts (Declaration.attributed (.upTo (n + 15)))
      (objectMapper lints type decodeArms encodeArms ++ rest) rest := by
  have hdecode (rest : List Token) := (Declaration.reads_private_function
    (reads_decode_signature (n := n + 6) _ rest) rfl (block_match hd.2 hd.1) rfl).accepts
  have hencode := (Declaration.reads_private_function
    (reads_encode_signature (n := n + 6) _ []) rfl (block_match he.2 he.1) rfl).accepts
  have hfront : code "impl :: typemux :: core :: ObjectMapper for" =
    .word (.plain "impl") :: (objectMapperPath.tokens ++ [.word (.plain "for")]) := rfl
  have hmatch : code "match type_name" =
    [.word (.plain "match"), .word (.plain "type_name")] := rfl
  have hlast := Sequenced.cons hencode
    (by simp only [List.length_append, List.length_cons, List.length_nil]; omega) .nil
  have hmembers := Sequenced.cons (hdecode _)
    (by simp only [List.length_append, List.length_cons]; omega) hlast
  simp only [objectMapper, hfront, brace, chooseArm, hmatch, List.append_assoc,
    List.cons_append, List.nil_append] at hmembers ⊢
  have hallow : Accepts (Path.attributeBody (.upTo (n + 15))) (code "allow" ++ paren (code lints))
      [] := accepts_listBody (w := .plain "allow") ⟨by decide, by decide⟩ _
  exact Declaration.accepts_attributed (Attributes.reads (.cons hallow .nil) rfl)
    (Declaration.accepts_item_implementation (Declaration.reads_implementation_for objectMapperPath
      hw (Declaration.accepts_members hmembers rfl rest)))

/-! Mappers of many objects -/

theorem legible_batchMapper {type : Word} (hw : type.IsName) : Legible (batchMapper type) := by
  refine .append (.append (legible_code (by rfl)) (legible_word hw)) (legible_group _ ?_)
  refine .append (.append (.append (.append (.append (.append (.append (.append (.append (.append
    (.append (.append (.append (.append (.append ?_ (legible_group _ ?_)) ?_) (legible_group _ ?_))
    ?_) ?_) ?_) (legible_group _ (legible_call ?_ (.append (.append ?_ (legible_group _
      (legible_call ?_ ?_))) ?_)))) ?_) (legible_group _ ?_)) ?_) (legible_group _ ?_)) ?_) ?_) ?_)
    (legible_group _ (legible_call ?_ (.append ?_ (legible_group _ (legible_call ?_
      (.append (.append (.append ?_ ?_) (legible_group _ ?_)) ?_))))))
  all_goals exact legible_code (by rfl)

/-- The item by which the dispatcher converts many objects is read. -/
theorem accepts_batchMapper {type : Word} (hw : type.IsName) :
    Accepts (Declaration.attributed (.upTo (n + 16))) (batchMapper type) [] := by
  have hfront : code "impl :: typemux :: core :: BatchMapper for" =
    .word (.plain "impl") :: (batchMapperPath.tokens ++ [.word (.plain "for")]) := rfl
  rw [batchMapper, hfront]
  generalize hbody : code "fn decode_many < 'a , I >" ++ _ ++ _ ++ _ ++ _ ++ _ ++ _ ++ _ ++ _ ++ _
    ++ _ ++ _ ++ _ ++ _ ++ _ ++ _ = body
  -- nothing in the braces depends on the type
  have hmembers : Accepts (Declaration.members (.upTo (n + 15)) (Declaration.implMember
      (.upTo (n + 15)))) [.group .brace body] [] := by
    subst hbody
    refine Grammar.accepts_of_inside (fun g => Declaration.members g (Declaration.implMember g))
      (fun _ _ _ => inferInstance) 15 ?_
    unfold call borrowed
    repeat rw [code_ofList]
    decide +kernel
  simp only [brace, List.append_assoc, List.cons_append, List.nil_append]
  exact Declaration.accepts_attributed (reads_outerAttributes_stop rfl)
    (Declaration.accepts_item_implementation
      (Declaration.reads_implementation_for batchMapperPath hw hmembers))

end Switchboard.Emission
