import Mathlib.Data.List.Infix
import Switchboard.Proofs.NamePaths

/-! How deep rules may be nested. A bound on the nesting only ever keeps a rule from an answer: what
is read under one bound is read in the same way under every higher one. -/

namespace Switchboard.Source

open Parse

variable {α β σ : Type}

/-- That one rule reads as another one does, wherever the other one does not fail: from the front of
what is ahead, whatever was read before. -/
class Below (p q : Parse α) : Prop where
  run : ∀ {ts behind a d}, p ⟨ts, behind⟩ = some (a, d) → ∃ front written,
    ts = front ++ d.ahead ∧ d.behind = written ++ behind ∧
      ∀ behind', q ⟨ts, behind'⟩ = some (a, ⟨d.ahead, written ++ behind'⟩)

section

variable {p q : Parse α} {f h : α → Parse β}

theorem Below.reads (hp : Below p q) {c d : Cursor} {a : α} (h : p c = some (a, d)) :
    Reads q c.ahead a d.ahead := by
  obtain ⟨_, written, _, _, hall⟩ := hp.run h
  exact .of_eq fun behind => ⟨written ++ behind, hall behind⟩

/-- A rule that looks only at what is ahead and passes all of it on. -/
theorem below_of_looks (a : List Token → α) (hp : ∀ c, p c = some (a c.ahead, c)) : Below p p where
  run {ts behind b d} hr := by
    rw [hp] at hr
    cases hr
    exact ⟨[], [], rfl, rfl, fun behind' => hp ⟨ts, behind'⟩⟩

instance (a : α) : Below (pure a : Parse α) (pure a) := below_of_looks (fun _ => a) fun _ => rfl

instance : Below ahead ahead := below_of_looks (fun ts => ts) fun _ => rfl

instance (test : List Token → Bool) : Below (sees test) (sees test) :=
  below_of_looks test fun _ => rfl

instance : Below atEnd atEnd := below_of_looks List.isEmpty fun _ => rfl

instance : Below (failure : Parse α) q := ⟨fun hr => by cases hr⟩

theorem Below.bind (hp : Below p q) (hf : ∀ a, Below (f a) (h a)) :
    Below (p >>= f) (q >>= h) where
  run {ts behind b d} hr := by
    obtain ⟨⟨a, e⟩, ha, hb⟩ := Option.bind_eq_some_iff.mp hr
    obtain ⟨front, written, hts, hbehind, hq⟩ := hp.run ha
    obtain ⟨next, more, hnext, hmore, hh⟩ := (hf a).run hb
    refine ⟨front ++ next, more ++ written, ?_, ?_, fun behind' => ?_⟩
    · rw [List.append_assoc, ← hnext, hts]
    · rw [hmore, hbehind, List.append_assoc]
    · change (q ⟨ts, behind'⟩).bind _ = _
      rw [hq behind', List.append_assoc]
      exact hh (written ++ behind')

instance [Below p q] [∀ a, Below (f a) (h a)] : Below (p >>= f) (q >>= h) :=
  .bind inferInstance inferInstance

private theorem Below.ite {b : Prop} [Decidable b] {p' q' : Parse α} (hp : Below p q)
    (hp' : Below p' q') : Below (if b then p else p') (if b then q else q') := by
  by_cases hb : b
  · rwa [if_pos hb, if_pos hb]
  · rwa [if_neg hb, if_neg hb]

instance (b : Prop) [Decidable b] {p' q' : Parse α} [Below p q] [Below p' q'] :
    Below (if b then p else p') (if b then q else q') :=
  .ite inferInstance inferInstance

instance (b : Bool) : Below (require b) (require b) := by
  unfold require
  infer_instance

instance : Below one one where
  run {ts behind t d} hr := by
    cases ts with
    | nil => cases hr
    | cons u rest =>
      cases hr
      exact ⟨[t], [t], rfl, rfl, fun _ => rfl⟩

instance (ts : List Token) : Below (write ts) (write ts) where
  run {us behind a d} hr := by
    cases hr
    exact ⟨[], ts.reverse, rfl, rfl, fun _ => rfl⟩

instance (text : String) : Below (mark text) (mark text) where
  run {ts behind a d} hr := by
    unfold mark at hr
    split at hr
    · rename_i hm
      cases hr
      refine ⟨ts.take text.toList.length, (Token.marks text.toList).reverse, ?_, rfl, fun _ => ?_⟩
      · exact (List.take_append_drop _ _).symm
      · exact if_pos hm
    · cases hr

instance (text : String) : Below (mark? text) (mark? text) := by
  unfold mark?
  infer_instance

instance : Below anyWord anyWord := by
  unfold anyWord
  refine .bind inferInstance fun t => ?_
  cases t <;> infer_instance

instance : Below ident ident := by
  unfold ident
  infer_instance

instance (text : String) : Below (key text) (key text) := by
  unfold key
  infer_instance

instance (text : String) : Below (key? text) (key? text) := by
  unfold key?
  infer_instance

instance : Below lifetime lifetime := by
  unfold lifetime
  infer_instance

instance : Below lifetime? lifetime? := by
  unfold lifetime?
  infer_instance

instance : Below literal literal := by
  unfold literal
  dsimp only
  infer_instance

/-- What a rule reads on the inside of a group another one reads there. -/
theorem Below.inside (hp : Below p q) {body printed : List Token} {a : α}
    (h : Parse.inside p body = some (a, printed)) : Parse.inside q body = some (a, printed) := by
  unfold Parse.inside at h
  split at h
  · rename_i b behind hr
    cases h
    obtain ⟨_, written, _, hb, hq⟩ := hp.run hr
    rw [List.append_nil] at hb
    rw [Parse.inside, hq [], List.append_nil, ← show behind = written from hb]
  · cases h

instance (d : Delimiter) [hp : Below p q] : Below (group d p) (group d q) where
  run {ts behind a e} hr := by
    unfold group at hr
    split at hr
    · rename_i f body rest hts
      split at hr
      · rename_i hd
        obtain ⟨⟨b, printed⟩, hi, he⟩ := Option.map_eq_some_iff.mp hr
        cases he
        refine ⟨[.group f body], [.group f printed], hts, rfl, fun behind' => ?_⟩
        rw [group, show ts = .group f body :: rest from hts]
        simp [hd, hp.inside hi]
      · cases hr
    · cases hr

instance : Below anyGroup anyGroup := by
  unfold anyGroup
  refine .bind inferInstance fun t => ?_
  cases t <;> infer_instance

instance [hp : Below p q] : Below (captured p) (captured q) where
  run {ts behind r d} hr := by
    obtain ⟨⟨a, e⟩, ha, he⟩ := Option.map_eq_some_iff.mp hr
    cases he
    obtain ⟨front, written, hts, hb, hq⟩ := hp.run ha
    rw [List.append_nil] at hb
    refine ⟨front, [], hts, rfl, fun behind' => ?_⟩
    have hq := hq []
    rw [List.append_nil, ← hb] at hq
    simp [captured, hq]

instance (n : Nat) (s : σ) {p q : σ → Parse (σ × Bool)} [∀ s, Below (p s) (q s)] :
    Below (steps p n s) (steps q n s) := by
  induction n generalizing s with
  | zero => exact inferInstanceAs (Below failure _)
  | succ n ih =>
    unfold steps
    infer_instance

theorem Below.repeated {p q : σ → Parse (σ × Bool)} (h : ∀ s, Below (p s) (q s)) (s : σ) :
    Below (Parse.repeated p s) (Parse.repeated q s) := by
  unfold Parse.repeated
  infer_instance

instance (s : σ) {p q : σ → Parse (σ × Bool)} [∀ s, Below (p s) (q s)] :
    Below (repeated p s) (repeated q s) :=
  .repeated inferInstance s

instance (sep : String) (stop : List Token → Bool) [Below p q] :
    Below (separated sep stop p) (separated sep stop q) := by
  unfold separated
  infer_instance

instance [Below p q] : Below (commaList p) (commaList q) := by
  unfold commaList
  infer_instance

instance [Below p q] : Below (untilEnd p) (untilEnd q) := by
  unfold untilEnd
  infer_instance

/-- A rule that may fail, and what goes on from it. What another rule reads where the first one
fails must not be missed. -/
theorem Below.attempt {f h : Option α → Parse β} (hp : Below p q) (hf : ∀ a, Below (f a) (h a))
    (hn : ∀ ts behind, p ⟨ts, behind⟩ = none → (∃ behind' r, q ⟨ts, behind'⟩ = some r) →
      f none ⟨ts, behind⟩ = none) : Below (Parse.attempt p >>= f) (Parse.attempt q >>= h) where
  run {ts behind b d} hr := by
    cases hs : p ⟨ts, behind⟩ with
    | some r =>
      obtain ⟨a, e⟩ := r
      have hone : f (some a) e = some (b, d) := by
        have hb : (Parse.attempt p >>= f) ⟨ts, behind⟩ = f (some a) e := by
          change (Parse.attempt p ⟨ts, behind⟩).bind _ = _
          rw [Parse.attempt, hs]
          rfl
        rw [← hb, hr]
      obtain ⟨front, written, hts, hbehind, hq⟩ := hp.run hs
      obtain ⟨next, more, hnext, hmore, hh⟩ := (hf (some a)).run hone
      refine ⟨front ++ next, more ++ written, ?_, ?_, fun behind' => ?_⟩
      · rw [List.append_assoc, ← hnext, hts]
      · rw [hmore, hbehind, List.append_assoc]
      · change (Parse.attempt q ⟨ts, behind'⟩).bind _ = _
        rw [Parse.attempt, hq behind', List.append_assoc]
        exact hh (written ++ behind')
    | none =>
      have hone : f none ⟨ts, behind⟩ = some (b, d) := by
        have hb : (Parse.attempt p >>= f) ⟨ts, behind⟩ = f none ⟨ts, behind⟩ := by
          change (Parse.attempt p ⟨ts, behind⟩).bind _ = _
          rw [Parse.attempt, hs]
          rfl
        rw [← hb, hr]
      obtain ⟨front, written, hts, hbehind, hh⟩ := (hf none).run hone
      refine ⟨front, written, hts, hbehind, fun behind' => ?_⟩
      have hq : q ⟨ts, behind'⟩ = none := by
        refine Option.eq_none_iff_forall_ne_some.mpr fun r hq => ?_
        rw [hn ts behind hs ⟨behind', r, hq⟩] at hone
        cases hone
      change (Parse.attempt q ⟨ts, behind'⟩).bind _ = _
      rw [Parse.attempt, hq]
      exact hh behind'

/-- A rule that does not fail under one bound on the nesting only because of what is ahead. -/
instance [hp : Below p p] {f h : Option α → Parse β} [∀ a, Below (f a) (h a)] :
    Below (attempt p >>= f) (attempt p >>= h) := by
  refine .attempt hp inferInstance fun ts behind hn hs => ?_
  obtain ⟨behind', ⟨a, d⟩, hr⟩ := hs
  obtain ⟨_, _, _, _, hq⟩ := hp.run hr
  rw [hq behind] at hn
  cases hn

end

/-- That every rule of one grammar reads as that of another one wherever it does not fail. A
receiver whose type the one grammar does not read is not read as an argument by it either. -/
class Grammar.Deepens (g h : Grammar) : Prop where
  rule : ∀ r, Below (g r) (h r)
  receiver : ∀ {ts behind}, Declaration.receiver g ⟨ts, behind⟩ = none →
    (∃ behind' r, Declaration.receiver h ⟨ts, behind'⟩ = some r) →
    (Ahead.ident ts && Ahead.mark "<" (ts.drop 1)) = false ∧
      ∀ b d e, g.pattern ⟨ts, behind⟩ = some (b, d) → mark ":" d = some ((), e) →
        Ahead.mark "..." e.ahead = false ∧ g.type e = none

variable {g h : Grammar} [hg : g.Deepens h]

namespace Grammar

instance : Below g.type h.type := hg.rule _

instance : Below g.typeNoPlus h.typeNoPlus := hg.rule _

instance (capture constant : Bool) : Below (g.bound capture constant) (h.bound capture constant) :=
  hg.rule _

instance : Below g.expr h.expr := hg.rule _

instance : Below g.exprBeforeBlock h.exprBeforeBlock := hg.rule _

instance (structs : Bool) : Below (g.exprWith structs) (h.exprWith structs) := hg.rule _

instance : Below g.leadingExpr h.leadingExpr := hg.rule _

instance (structs : Bool) : Below (g.operand structs) (h.operand structs) := hg.rule _

instance (lhs : ExprForm) (structs : Bool) (base : Level) :
    Below (g.operators lhs structs base) (h.operators lhs structs base) := hg.rule _

instance : Below g.pattern h.pattern := hg.rule _

instance : Below g.statements h.statements := hg.rule _

instance (root : Bool) : Below (g.importTree root) (h.importTree root) := hg.rule _

instance : Below g.fields h.fields := hg.rule _

instance : Below g.item h.item := hg.rule _

end Grammar

set_option synthInstance.maxSize 1000000
set_option synthInstance.maxHeartbeats 200000

namespace Path

instance : Below plainSegments plainSegments := by
  unfold plainSegments
  infer_instance

instance : Below plain plain := by
  unfold plain
  infer_instance

instance : Below (attributeBody g) (attributeBody h) := by
  unfold attributeBody
  dsimp only
  infer_instance

instance : Below (oneAttribute g) (oneAttribute h) := by
  unfold oneAttribute
  infer_instance

instance : Below (outerAttributes g) (outerAttributes h) := by
  unfold outerAttributes
  infer_instance

instance : Below (innerAttributes g) (innerAttributes h) := by
  unfold innerAttributes
  infer_instance

instance : Below (block g) (block h) := by
  unfold block
  infer_instance

instance : Below (plainBlock g) (plainBlock h) := by
  unfold plainBlock
  infer_instance

instance : Below (constant g) (constant h) := by
  unfold constant
  infer_instance

instance : Below member member := by
  unfold member
  infer_instance

instance (stop : List Token → Bool) : Below (boundsUntil g stop) (boundsUntil h stop) := by
  unfold boundsUntil
  infer_instance

instance : Below (argument g) (argument h) := by
  unfold argument
  dsimp only
  infer_instance

instance : Below (angleArguments g) (angleArguments h) := by
  unfold angleArguments
  infer_instance

instance (inExpr : Bool) : Below (segment g inExpr) (segment h inExpr) := by
  unfold segment
  dsimp only
  infer_instance

instance (inExpr : Bool) (form : PathForm) :
    Below (further g inExpr form) (further h inExpr form) := by
  unfold further
  infer_instance

instance (inExpr : Bool) : Below (unqualified g inExpr) (unqualified h inExpr) := by
  unfold unqualified
  infer_instance

instance (inExpr : Bool) : Below (any g inExpr) (any h inExpr) := by
  unfold any
  dsimp only
  infer_instance

instance (plus : Bool) : Below (returned g plus) (returned h plus) := by
  unfold returned
  refine .bind inferInstance fun found => ?_
  cases found with
  | false => exact inferInstanceAs (Below (pure none) (pure none))
  | true =>
    have hform (form : TypeForm) :
        Below (pure (some form) : Parse (Option TypeForm)) (pure (some form)) := inferInstance
    exact .bind (hg.rule (.type plus)) hform

instance : Below (parenArguments g) (parenArguments h) := by
  unfold parenArguments
  dsimp only
  infer_instance

end Path

namespace Types

instance : Below (boundLifetimes g) (boundLifetimes h) := by
  unfold boundLifetimes
  infer_instance

instance : Below (boundLifetimes? g) (boundLifetimes? h) := by
  unfold boundLifetimes?
  infer_instance

instance : Below captures captures := by
  unfold captures
  infer_instance

instance (constant : Bool) : Below (traitBound g constant) (traitBound h constant) := by
  unfold traitBound
  dsimp only
  infer_instance

instance (capture constant : Bool) :
    Below (boundRule g capture constant) (boundRule h capture constant) := by
  unfold boundRule
  infer_instance

instance (plus capture constant : Bool) :
    Below (bounds g plus capture constant) (bounds h plus capture constant) := by
  unfold bounds
  dsimp only
  infer_instance

instance : Below (furtherBounds g) (furtherBounds h) := by
  unfold furtherBounds
  infer_instance

instance : Below (furtherBounds? g) (furtherBounds? h) := by
  unfold furtherBounds?
  infer_instance

instance : Below (enclosed g) (enclosed h) := by
  unfold enclosed
  infer_instance

instance (plus : Bool) : Below (parenthesized g plus) (parenthesized h plus) := by
  unfold parenthesized
  refine .bind inferInstance fun found => ?_
  cases found <;> infer_instance

instance : Below linkage linkage := by
  unfold linkage
  infer_instance

instance : Below variadic variadic := by
  unfold variadic
  dsimp only
  infer_instance

instance (first : Bool) : Below (pointerArgument g first) (pointerArgument h first) := by
  unfold pointerArgument
  dsimp only
  infer_instance

instance : Below (pointerArguments g) (pointerArguments h) := by
  unfold pointerArguments
  infer_instance

instance : Below (functionPointer g) (functionPointer h) := by
  unfold functionPointer
  infer_instance

instance : Below (pathType g) (pathType h) := by
  unfold pathType
  infer_instance

instance (binder plus : Bool) : Below (named g binder plus) (named h binder plus) := by
  unfold named
  infer_instance

instance : Below (sequence g) (sequence h) := by
  unfold sequence
  infer_instance

instance (plus : Bool) : Below (typeRule g plus) (typeRule h plus) := by
  unfold typeRule
  dsimp only
  infer_instance

end Types

namespace Pattern

instance : Below (alternatives g) (alternatives h) := by
  unfold alternatives
  infer_instance

instance : Below (rangeEnd g) (rangeEnd h) := by
  unfold rangeEnd
  dsimp only
  infer_instance

instance (three : Bool) : Below (dots three) (dots three) := by
  unfold dots
  infer_instance

instance : Below (rangeFrom g) (rangeFrom h) := by
  unfold rangeFrom
  infer_instance

instance : Below (field g) (field h) := by
  unfold field
  infer_instance

instance : Below (fields g) (fields h) := by
  unfold fields
  infer_instance

instance : Below (named g) (named h) := by
  unfold named
  infer_instance

instance : Below (binding g) (binding h) := by
  unfold binding
  dsimp only
  infer_instance

instance : Below (element g) (element h) := by
  unfold element
  infer_instance

instance : Below (patternRule g) (patternRule h) := by
  unfold patternRule
  infer_instance

end Pattern

namespace Expression

instance (structs : Bool) (level : Level) :
    Below (rightOperand g structs level) (rightOperand h structs level) := by
  unfold rightOperand
  infer_instance

instance (structs : Bool) : Below (range g structs) (range h structs) := by
  unfold range
  infer_instance

instance (lhs : ExprForm) (structs : Bool) (base : Level) :
    Below (operatorsRule g lhs structs base) (operatorsRule h lhs structs base) := by
  unfold operatorsRule
  refine .repeated (fun lhs => .ite inferInstance (.bind inferInstance fun ts => ?_)) lhs
  cases binary? ts <;> infer_instance

instance : Below (arguments g) (arguments h) := by
  unfold arguments
  infer_instance

instance : Below nestedPlaces nestedPlaces := by
  unfold nestedPlaces
  refine .bind inferInstance fun ts => ?_
  split <;> infer_instance

instance : Below (member g) (member h) := by
  unfold member
  dsimp only
  infer_instance

instance (form : ExprForm) : Below (trailers g form) (trailers h form) := by
  unfold trailers
  infer_instance

instance : Below (choice g) (choice h) := by
  unfold choice
  infer_instance

instance : Below (arm g) (arm h) := by
  unfold arm
  dsimp only
  infer_instance

instance : Below (arms g) (arms h) := by
  unfold arms
  infer_instance

instance : Below (loop? g) (loop? h) := by
  unfold loop?
  infer_instance

instance : Below (blockLike? g) (blockLike? h) := by
  unfold blockLike?
  dsimp only
  infer_instance

instance (structs : Bool) : Below (closure g structs) (closure h structs) := by
  unfold closure
  infer_instance

instance : Below (field g) (field h) := by
  unfold field
  infer_instance

instance : Below (fields g) (fields h) := by
  unfold fields
  infer_instance

instance (structs : Bool) : Below (named g structs) (named h structs) := by
  unfold named
  infer_instance

instance : Below (elements g) (elements h) := by
  unfold elements
  infer_instance

instance (structs : Bool) : Below (leave g structs) (leave h structs) := by
  unfold leave
  infer_instance

instance (structs : Bool) : Below (breakOut g structs) (breakOut h structs) := by
  unfold breakOut
  dsimp only
  infer_instance

instance (structs : Bool) : Below (condition g structs) (condition h structs) := by
  unfold condition
  infer_instance

instance (structs : Bool) : Below (atom g structs) (atom h structs) := by
  unfold atom
  infer_instance

instance (structs : Bool) : Below (operandRule g structs) (operandRule h structs) := by
  unfold operandRule
  dsimp only
  infer_instance

instance (structs : Bool) : Below (exprRule g structs) (exprRule h structs) := by
  unfold exprRule
  infer_instance

instance : Below (leadingRule g) (leadingRule h) := by
  unfold leadingRule
  infer_instance

end Expression

namespace Generics

instance (stop : List Token → Bool) : Below (lifetimesUntil stop) (lifetimesUntil stop) := by
  unfold lifetimesUntil
  infer_instance

instance (stop : List Token → Bool) : Below (joinedUntil g stop) (joinedUntil h stop) := by
  unfold joinedUntil
  infer_instance

instance : Below (parameter g) (parameter h) := by
  unfold parameter
  dsimp only
  infer_instance

instance : Below (parameters g) (parameters h) := by
  unfold parameters
  infer_instance

instance : Below (clause g) (clause h) := by
  unfold clause
  infer_instance

instance : Below (clauses? g) (clauses? h) := by
  unfold clauses?
  infer_instance

end Generics

namespace Statement

instance : Below (binding g) (binding h) := by
  unfold binding
  dsimp only
  infer_instance

instance : Below (expression g) (expression h) := by
  unfold expression
  infer_instance

instance : Below (one g) (one h) := by
  unfold one
  infer_instance

instance : Below (statementsRule g) (statementsRule h) := by
  unfold statementsRule
  infer_instance

end Statement

namespace Declaration

instance : Below visibility visibility := by
  unfold visibility
  infer_instance

instance : Below (receiver g) (receiver h) := by
  unfold receiver
  dsimp only
  infer_instance

instance : Below variadicEnd variadicEnd := by
  unfold variadicEnd
  infer_instance

instance : Below (arguments g) (arguments h) := by
  unfold arguments
  dsimp only
  refine .bind (.repeated (fun first => ?_) true) inferInstance
  refine .bind inferInstance fun ended => .ite inferInstance (.bind inferInstance fun _ => ?_)
  refine .bind inferInstance fun dots => .ite inferInstance ?_
  refine .attempt inferInstance inferInstance fun ts behind hn hs => ?_
  obtain ⟨hname, hpattern⟩ := hg.receiver hn hs
  rw [if_neg (by simp), sees_bind, hname, if_neg Bool.false_ne_true]
  change (g.pattern ⟨ts, behind⟩).bind _ = none
  cases hp : g.pattern ⟨ts, behind⟩ with
  | none => rfl
  | some found =>
    obtain ⟨b, d⟩ := found
    change (mark ":" d).bind _ = none
    cases hm : mark ":" d with
    | none => rfl
    | some next =>
      obtain ⟨_, e⟩ := next
      obtain ⟨hdots, htype⟩ := hpattern b d e hp hm
      change (mark? "..." e).bind _ = none
      rw [mark?, sees_bind, hdots, if_neg Bool.false_ne_true]
      change (g.type e).bind _ = none
      rw [htype]
      rfl

instance (safe : Bool) : Below (signature g safe) (signature h safe) := by
  unfold signature
  dsimp only
  infer_instance

instance (safe : Bool) : Below (function g safe) (function h safe) := by
  unfold function
  infer_instance

instance : Below nameOrBlank nameOrBlank := by
  unfold nameOrBlank
  infer_instance

instance : Below (constantItem g) (constantItem h) := by
  unfold constantItem
  dsimp only
  infer_instance

instance : Below (staticItem g) (staticItem h) := by
  unfold staticItem
  dsimp only
  infer_instance

instance (place : ClausePlace) : Below (typeItem g place) (typeItem h place) := by
  unfold typeItem
  dsimp only
  infer_instance

instance : Below rename? rename? := by
  unfold rename?
  infer_instance

instance (root : Bool) : Below (importTreeRule g root) (importTreeRule h root) := by
  unfold importTreeRule
  dsimp only
  infer_instance

instance (name : Bool) : Below (macroItem name) (macroItem name) := by
  unfold macroItem
  dsimp only
  infer_instance

instance : Below (unnamedField g) (unnamedField h) := by
  unfold unnamedField
  infer_instance

instance : Below (namedField g) (namedField h) := by
  unfold namedField
  dsimp only
  infer_instance

instance : Below (fieldsRule g) (fieldsRule h) := by
  unfold fieldsRule
  infer_instance

instance : Below (unnamedFields g) (unnamedFields h) := by
  unfold unnamedFields
  infer_instance

instance : Below (structBody g) (structBody h) := by
  unfold structBody
  infer_instance

instance : Below (structItem g) (structItem h) := by
  unfold structItem
  infer_instance

instance : Below (variant g) (variant h) := by
  unfold variant
  dsimp only
  infer_instance

instance : Below (enumeration g) (enumeration h) := by
  unfold enumeration
  infer_instance

instance : Below (unionItem g) (unionItem h) := by
  unfold unionItem
  infer_instance

instance {p q : Parse α} [Below p q] : Below (members g p) (members h q) := by
  unfold members
  infer_instance

instance : Below (traitMember g) (traitMember h) := by
  unfold traitMember
  infer_instance

instance : Below (implMember g) (implMember h) := by
  unfold implMember
  dsimp only
  infer_instance

instance : Below (foreignMember g) (foreignMember h) := by
  unfold foreignMember
  dsimp only
  infer_instance

instance : Below (traitItem g) (traitItem h) := by
  unfold traitItem
  dsimp only
  infer_instance

instance : Below (implementation g) (implementation h) := by
  unfold implementation
  dsimp only
  infer_instance

instance : Below (foreignItem g) (foreignItem h) := by
  unfold foreignItem
  infer_instance

instance : Below (moduleItem g) (moduleItem h) := by
  unfold moduleItem
  dsimp only
  infer_instance

instance : Below macroDefinition macroDefinition := by
  unfold macroDefinition
  infer_instance

instance : Below externCrate externCrate := by
  unfold externCrate
  infer_instance

instance : Below (importItem g) (importItem h) := by
  unfold importItem
  infer_instance

instance {p q : Parse Unit} [Below p q] : Below (defining p) (defining q) := by
  unfold defining
  infer_instance

instance : Below (itemRule g) (itemRule h) := by
  unfold itemRule
  dsimp only
  infer_instance

/-! Receivers -/

/-- The receiver of a method up to its type: whether it is behind a reference. -/
def receiverName : Parse Bool := do
  let byRef ← mark? "&"
  if byRef then
    let _ ← lifetime?
  let _ ← key? "mut"
  key "self"
  return byRef

/-- The type of a receiver that is behind no reference. -/
def receiverType (g : Grammar) (byRef : Bool) : Parse Unit := do
  if !byRef then
    if ← mark? ":" then
      let _ ← g.type

instance : Below receiverName receiverName := by
  unfold receiverName
  dsimp only
  infer_instance

private theorem receiver_eq (g : Grammar) : receiver g = receiverName >>= receiverType g := by
  unfold receiver receiverName receiverType
  rw [bind_assoc]
  refine bind_congr fun byRef => ?_
  cases byRef <;> simp [bind_assoc]

end Declaration

namespace Types

/-- Most marks begin no type. -/
theorem typeRule_mark (g : Grammar) (plus : Bool) {c : Char} {s : Spacing} {ts : List Token}
    (hc : c ∉ ['<', '*', '&', '!', '\'']) (hr : Ahead.mark "::" (.mark c s :: ts) = false)
    (behind : List Token) : typeRule g plus ⟨.mark c s :: ts, behind⟩ = none := by
  have hkey (k : String) : Ahead.key k (.mark c s :: ts) = false := rfl
  have hident : Ahead.ident (.mark c s :: ts) = false := rfl
  have hgroup (d : Delimiter) : Ahead.group d (.mark c s :: ts) = false := rfl
  simp only [List.mem_cons, List.not_mem_nil, or_false, not_or] at hc
  obtain ⟨hangle, hstar, hand, hbang, htick⟩ := hc
  have hlife : Ahead.lifetime (.mark c s :: ts) = false := by
    unfold Ahead.lifetime
    split
    · rename_i he
      cases he
      exact absurd rfl htick
    · rfl
  have hmark {m : String} {d : Char} (hm : m.toList = [d]) (hd : c ≠ d) :
      Ahead.mark m (.mark c s :: ts) = false := by
    simp [Ahead.mark, hm, Ahead.marksAre, Ne.symm hd]
  simp [typeRule, boundLifetimes?, key?, mark?, sees_bind, hkey, hident, hgroup, hlife, hr,
    hmark (m := "<") rfl hangle, hmark (m := "*") rfl hstar, hmark (m := "&") rfl hand,
    hmark (m := "!") rfl hbang]
  rfl

end Types

namespace Pattern

variable {s : Spacing} {ts behind : List Token}

private theorem reads_mut_self (g : Grammar) :
    Reads (patternRule g) (.word (.plain "mut") :: .word (.plain "self") :: .mark ':' s :: ts) false
      (.mark ':' s :: ts) := by
  refine .unseen rfl (.bind (.key?_of_false rfl) (.bind (.key?_of_false rfl) ?_))
  refine .unseen rfl (.seen rfl (.next ?_ .pure))
  refine .bind (.key?_of_false rfl) (.bind (.key?_of_true rfl _) ?_)
  exact .bind (.key?_of_true rfl _) (.bind (.mark?_of_false rfl) .pure)

private theorem reads_self (g : Grammar) (hr : Ahead.mark "::" (.mark ':' s :: ts) = false) :
    Reads (patternRule g) (.word (.plain "self") :: .mark ':' s :: ts) false
      (.mark ':' s :: ts) := by
  have hn : beginsNamed (.word (.plain "self") :: .mark ':' s :: ts) = false := by
    have hident : Ahead.ident (.word (.plain "self") :: .mark ':' s :: ts) = false := rfl
    have hcolons : Ahead.mark "::" (.word (.plain "self") :: .mark ':' s :: ts) = false := rfl
    have hangle : Ahead.mark "<" (.word (.plain "self") :: .mark ':' s :: ts) = false := rfl
    have hkeys : (["Self", "super", "crate"].any fun k =>
      Ahead.key k (.word (.plain "self") :: .mark ':' s :: ts)) = false := rfl
    rw [beginsNamed, hident, hcolons, hangle, hkeys, List.drop_succ_cons, List.drop_zero, hr]
    simp
  refine .unseen hn (.bind (.key?_of_false rfl) (.bind (.key?_of_false rfl) ?_))
  refine .unseen rfl (.seen rfl (.next ?_ .pure))
  refine .bind (.key?_of_false rfl) (.bind (.key?_of_false rfl) ?_)
  exact .bind (.key?_of_true rfl _) (.bind (.mark?_of_false rfl) .pure)

/-- Three colons after a name are no path. -/
theorem patternRule_self_colons (g : Grammar) : patternRule g ⟨.word (.plain "self") ::
    .mark ':' .joint :: .mark ':' .joint :: .mark ':' s :: ts, behind⟩ = none := rfl

end Pattern

private theorem Word.eq_plain_of_is {w : Word} {text : String} (h : w.is text = true) :
    w = .plain text := by
  obtain ⟨raw, t⟩ := w
  simpa [Word.is, Word.plain] using h

private theorem exists_of_mark_colon {ts : List Token} (h : Ahead.mark ":" ts = true) :
    ∃ s later, ts = .mark ':' s :: later := by
  rcases ts with _ | ⟨_ | ⟨c, s⟩ | _ | _, later⟩ <;> simp [Ahead.mark, Ahead.marksAre] at h
  exact ⟨s, later, by rw [h.1]⟩

namespace Declaration

/-- The tokens of a receiver that is behind no reference. -/
theorem exists_of_receiverName {c d : Cursor} (h : receiverName c = some (false, d)) :
    c.ahead = .word (.plain "self") :: d.ahead ∨
      c.ahead = .word (.plain "mut") :: .word (.plain "self") :: d.ahead := by
  have hrest {byRef : Bool} {c₂ : Cursor} (hr : (do
      let _ ← key? "mut"
      key "self"
      return byRef : Parse Bool) c₂ = some (false, d)) : byRef = false ∧
      (c₂.ahead = .word (.plain "self") :: d.ahead ∨
        c₂.ahead = .word (.plain "mut") :: .word (.plain "self") :: d.ahead) := by
    obtain ⟨⟨found, c₃⟩, hmut, hr⟩ := Option.bind_eq_some_iff.mp hr
    obtain ⟨⟨_, c₄⟩, hself, hr⟩ := Option.bind_eq_some_iff.mp hr
    cases hr
    obtain ⟨w, hw, hws⟩ := ahead_of_key hself
    rw [Word.eq_plain_of_is hws] at hw
    refine ⟨rfl, ?_⟩
    rcases ahead_of_key? hmut with ⟨-, hmut⟩ | ⟨-, rfl, -⟩
    · obtain ⟨v, hv, hvs⟩ := ahead_of_key hmut
      rw [Word.eq_plain_of_is hvs, hw] at hv
      exact .inr hv
    · exact .inl hw
  obtain ⟨⟨byRef, c₁⟩, hm, hnext⟩ := Option.bind_eq_some_iff.mp h
  cases byRef with
  | true =>
    obtain ⟨⟨_, c₂⟩, _, hnext⟩ := Option.bind_eq_some_iff.mp hnext
    cases (hrest hnext).1
  | false =>
    rcases ahead_of_mark? hm with ⟨hf, -⟩ | ⟨-, rfl, -⟩
    · cases hf
    · exact (hrest hnext).2

/-- A receiver that one grammar reads and another one does not. They differ on its type. -/
theorem exists_of_receiver {g h : Grammar} (hg : Below g.type g.type)
    {ts behind behind' : List Token} {r : Unit × Cursor} (hn : receiver g ⟨ts, behind⟩ = none)
    (hs : receiver h ⟨ts, behind'⟩ = some r) : ∃ s later,
      (ts = .word (.plain "self") :: .mark ':' s :: later ∨
        ts = .word (.plain "mut") :: .word (.plain "self") :: .mark ':' s :: later) ∧
      (∃ behind r, h.type ⟨later, behind⟩ = some r) ∧ ∀ behind, g.type ⟨later, behind⟩ = none := by
  rw [receiver_eq] at hn hs
  obtain ⟨⟨byRef, d⟩, hd, ht⟩ := Option.bind_eq_some_iff.mp hs
  have hname : Below receiverName receiverName := inferInstance
  obtain ⟨front, written, hts, hb, hall⟩ := hname.run hd
  have htype : receiverType g byRef ⟨d.ahead, written ++ behind⟩ = none := by
    change (receiverName ⟨ts, behind⟩).bind _ = none at hn
    rwa [hall behind] at hn
  cases byRef with
  | true => cases htype
  | false =>
    obtain ⟨⟨found, e⟩, hm, ht⟩ := Option.bind_eq_some_iff.mp ht
    change (mark? ":" ⟨d.ahead, written ++ behind⟩).bind _ = none at htype
    rcases ahead_of_mark? hm with ⟨rfl, hmark⟩ | ⟨rfl, rfl, hno⟩
    · obtain ⟨hcolon, hlater⟩ := ahead_of_mark hmark
      obtain ⟨s, later, hd'⟩ := exists_of_mark_colon hcolon
      rw [hd'] at hlater
      change e.ahead = later at hlater
      have hfront := exists_of_receiverName hd
      rw [hd'] at hfront
      refine ⟨s, later, hfront, ?_, fun b => Option.eq_none_iff_forall_ne_some.mpr fun r' hr' => ?_⟩
      · obtain ⟨r', hr', _⟩ := Option.bind_eq_some_iff.mp ht
        exact ⟨e.behind, r', by rw [← hr', ← hlater]⟩
      · obtain ⟨_, _, _, _, hframe⟩ := hg.run hr'
        have hread : mark? ":" ⟨d.ahead, written ++ behind⟩ =
            some (true, ⟨later, .mark ':' .alone :: (written ++ behind)⟩) := by
          rw [mark?, sees_bind, if_pos hcolon, hd']
          rfl
        rw [hread] at htype
        change (g.type ⟨later, .mark ':' .alone :: (written ++ behind)⟩).bind _ = none at htype
        rw [hframe] at htype
        cases htype
    · rw [mark?, sees_bind, hno] at htype
      cases htype

end Declaration

/-- A receiver whose type is not read is read as a pattern up to its colon, if at all. -/
theorem Pattern.later_of_receiver {g h : Grammar} {s : Spacing} {ts later behind : List Token}
    {b : Bool} {d e : Cursor}
    (hts : ts = .word (.plain "self") :: .mark ':' s :: later ∨
      ts = .word (.plain "mut") :: .word (.plain "self") :: .mark ':' s :: later)
    (ht : ∃ behind r, Types.typeRule h true ⟨later, behind⟩ = some r)
    (hp : patternRule g ⟨ts, behind⟩ = some (b, d)) (hm : mark ":" d = some ((), e)) :
    e.ahead = later := by
  have hread (hr : Reads (patternRule g) ts false (.mark ':' s :: later)) : e.ahead = later := by
    obtain ⟨behind', hb⟩ := hr.exists_eq behind
    rw [hp, Option.some.injEq, Prod.mk.injEq] at hb
    have he := (ahead_of_mark hm).2
    rw [hb.2] at he
    exact he
  rcases hts with rfl | rfl
  · cases hc : Ahead.mark "::" (.mark ':' s :: later) with
    | false => exact hread (reads_self g hc)
    | true =>
      -- the type would begin with the second of three colons
      obtain ⟨s', more, hmore⟩ := Path.exists_colons hc
      obtain ⟨rfl, rfl⟩ : s = .joint ∧ later = .mark ':' s' :: more := by simpa using hmore
      obtain ⟨behind', r, hr⟩ := ht
      cases hcolons : Ahead.mark "::" (.mark ':' s' :: more) with
      | false =>
        rw [Types.typeRule_mark h true (by decide) hcolons] at hr
        cases hr
      | true =>
        obtain ⟨s'', last, hlast⟩ := Path.exists_colons hcolons
        obtain ⟨rfl, rfl⟩ : s' = .joint ∧ more = .mark ':' s'' :: last := by simpa using hlast
        rw [patternRule_self_colons] at hp
        cases hp
  · exact hread (reads_mut_self g)

private theorem Types.not_dots_of_typeRule {g : Grammar} {plus : Bool} {ts behind : List Token}
    {r : TypeForm × Cursor} (h : typeRule g plus ⟨ts, behind⟩ = some r) :
    Ahead.mark "..." ts = false := by
  cases hd : Ahead.mark "..." ts with
  | false => rfl
  | true =>
    obtain ⟨s, more, rfl⟩ : ∃ s more, ts = .mark '.' s :: more := by
      rcases ts with _ | ⟨_ | ⟨c, _ | _⟩ | _ | _, more⟩
      all_goals simp [Ahead.mark, Ahead.marksAre] at hd
      exact ⟨_, more, by rw [hd.1.1]⟩
    rw [typeRule_mark g plus (by decide) (by cases s <;> rfl)] at h
    cases h

namespace Grammar

/-- One level further the rules read on if those below do. -/
theorem below_upTo_succ {n m : Nat} (h : (upTo n).Deepens (upTo m)) (r : Rule) :
    Below (upTo (n + 1) r) (upTo (m + 1) r) := by
  cases r with
  | type plus => exact inferInstanceAs (Below (Types.typeRule _ plus) (Types.typeRule _ plus))
  | bound capture constant =>
    exact inferInstanceAs (Below (Types.boundRule _ capture constant)
      (Types.boundRule _ capture constant))
  | expr structs =>
    exact inferInstanceAs (Below (Expression.exprRule _ structs) (Expression.exprRule _ structs))
  | leadingExpr =>
    exact inferInstanceAs (Below (Expression.leadingRule _) (Expression.leadingRule _))
  | operand structs =>
    exact inferInstanceAs (Below (Expression.operandRule _ structs)
      (Expression.operandRule _ structs))
  | operators lhs structs base =>
    exact inferInstanceAs (Below (Expression.operatorsRule _ lhs structs base)
      (Expression.operatorsRule _ lhs structs base))
  | pattern => exact inferInstanceAs (Below (Pattern.patternRule _) (Pattern.patternRule _))
  | statements =>
    exact inferInstanceAs (Below (Statement.statementsRule _) (Statement.statementsRule _))
  | importTree root =>
    exact inferInstanceAs (Below (Declaration.importTreeRule _ root)
      (Declaration.importTreeRule _ root))
  | fields => exact inferInstanceAs (Below (Declaration.fieldsRule _) (Declaration.fieldsRule _))
  | item => exact inferInstanceAs (Below (Declaration.itemRule _) (Declaration.itemRule _))

/-- What the rules of a grammar read is not changed by a higher bound on the nesting. -/
theorem deepens_upTo {n m : Nat} (h : n ≤ m) : (upTo n).Deepens (upTo m) := by
  induction n generalizing m with
  | zero =>
    have hrule (r : Rule) : Below (upTo 0 r) (upTo m r) := inferInstanceAs (Below failure _)
    refine ⟨hrule, fun hn hs => ?_⟩
    obtain ⟨_, _, hs⟩ := hs
    have htype : Below (upTo 0).type (upTo 0).type := inferInstanceAs (Below failure _)
    obtain ⟨s, later, hts, -, -⟩ := Declaration.exists_of_receiver htype hn hs
    exact ⟨by rcases hts with rfl | rfl <;> rfl, nofun⟩
  | succ n ih =>
    obtain ⟨m, rfl⟩ : ∃ k, m = k + 1 := ⟨m - 1, by omega⟩
    refine ⟨below_upTo_succ (ih (Nat.le_of_succ_le_succ h)), fun hn hs => ?_⟩
    obtain ⟨_, _, hs⟩ := hs
    obtain ⟨s, later, hts, ht, hg⟩ :=
      Declaration.exists_of_receiver (below_upTo_succ (ih (Nat.le_refl n)) (.type true)) hn hs
    refine ⟨by rcases hts with rfl | rfl <;> rfl, fun b d e hp hm => ?_⟩
    have he := Pattern.later_of_receiver hts ht hp hm
    obtain ⟨behind, r, hr⟩ := ht
    refine ⟨he ▸ Types.not_dots_of_typeRule hr, ?_⟩
    obtain ⟨ahead, behind⟩ := e
    rw [show ahead = later from he]
    exact hg behind

end Grammar

theorem Parse.isSome_inside_iff {p : Parse α} {body : List Token} :
    (inside p body).isSome = true ↔ ∃ a behind, p ⟨body, []⟩ = some (a, ⟨[], behind⟩) := by
  unfold inside
  constructor
  · intro h
    split at h
    · exact ⟨_, _, ‹_›⟩
    · cases h
  · rintro ⟨a, behind, h⟩
    rw [h]
    rfl

/-- What a rule reads as a whole under some bound on the nesting. One run of the rule tells so. -/
theorem Grammar.accepts_of_inside (rule : Grammar → Parse α)
    (hrule : ∀ g h : Grammar, g.Deepens h → Below (rule g) (rule h)) (k : Nat) {n : Nat}
    {ts : List Token} (h : (inside (rule (upTo k)) ts).isSome = true) :
    Accepts (rule (upTo (n + k))) ts [] := by
  obtain ⟨a, behind, hr⟩ := isSome_inside_iff.mp h
  exact ⟨a, (hrule _ _ (deepens_upTo (Nat.le_add_left k n))).reads hr⟩

end Switchboard.Source
