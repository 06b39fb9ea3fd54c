import Switchboard.Proofs.Outline
import Switchboard.Proofs.Reading
import Switchboard.Source.File

/-! Angle brackets. Those of a path are balanced, and at the outside of them a path is made of names
and colons only, so no part of an outline that goes on with something else ends within a path. -/

namespace Switchboard.Source

open Parse

namespace Outline

/-- That splitting goes through tokens, from one place in angle brackets to another, without an end
of a part. -/
def Passes (ends : Token → Bool) (a b : Angles) (ts : List Token) : Prop :=
  ∀ head rest, split ends a head (ts ++ rest) = split ends b (ts.reverse ++ head) rest

variable {ends : Token → Bool} {a b c : Angles} {s t : List Token}

theorem passes_nil : Passes ends a a [] := fun _ _ => rfl

theorem passes_append (hs : Passes ends a b s) (ht : Passes ends b c t) :
    Passes ends a c (s ++ t) := by
  intro head rest
  rw [List.append_assoc, hs, ht, List.reverse_append, List.append_assoc]

theorem passes_singleton {t : Token} (h : a.depth = 0 → ends t = false) :
    Passes ends a (a.after t) [t] := by
  intro head rest
  have hn : ¬ (decide (a.depth = 0) && ends t) = true := by
    intro he
    simp only [Bool.and_eq_true, decide_eq_true_eq] at he
    rw [h he.1] at he
    cases he.2
  rw [List.singleton_append, split, if_neg hn]
  rfl

/-- That nothing ends with what a path has outside of angle brackets. -/
structure EndsNoPath (ends : Token → Bool) : Prop where
  word : ∀ w, ends (.word w) = false
  colon : ∀ s, ends (.mark ':' s) = false
  angle : ∀ s, ends (.mark '<' s) = false

/-- Tokens that can be passed as parts of a path. -/
def Balanced (ts : List Token) : Prop :=
  ∀ ends i, (i = 0 → EndsNoPath ends) → Passes ends ⟨i, false⟩ ⟨i, false⟩ ts

/-- Tokens that can be passed in angle brackets. -/
def Bracketed (ts : List Token) : Prop := ∀ ends i, Passes ends ⟨i + 1, false⟩ ⟨i + 1, false⟩ ts

/-- Tokens that can be passed as the rest of a path from angle brackets on. -/
def Closing (ts : List Token) : Prop :=
  ∀ ends i, (i = 0 → EndsNoPath ends) → Passes ends ⟨i + 1, false⟩ ⟨i, false⟩ ts

theorem Balanced.bracketed {ts : List Token} (h : Balanced ts) : Bracketed ts :=
  fun ends i => h ends (i + 1) fun hi => absurd hi (Nat.succ_ne_zero i)

instance : JoinsWords Balanced where
  nil _ _ _ := passes_nil
  append _ _ hs ht ends i he := passes_append (hs ends i he) (ht ends i he)
  word w _ _ he := passes_singleton fun hi => (he hi).word w

instance : JoinsGroups Bracketed where
  nil _ _ := passes_nil
  append _ _ hs ht ends i := passes_append (hs ends i) (ht ends i)
  word _ _ _ := passes_singleton fun hi => absurd hi (Nat.succ_ne_zero _)
  group _ _ _ _ := passes_singleton fun hi => absurd hi (Nat.succ_ne_zero _)

/-- Whether a token is a name or a colon. -/
def isPlain : Token → Bool
  | .word _ | .mark ':' _ => true
  | _ => false

theorem balanced_of_isPlain {ts : List Token} (h : ts.all isPlain = true) : Balanced ts := by
  induction ts with
  | nil => exact Joins.nil
  | cons t rest ih =>
    simp only [List.all_cons, Bool.and_eq_true] at h
    refine Joins.append [t] rest (fun ends i he => ?_) (ih h.2)
    have ht := h.1
    unfold isPlain at ht
    split at ht
    · exact passes_singleton fun hi => (he hi).word _
    · exact passes_singleton fun hi => (he hi).colon _
    · cases ht

end Outline

open Outline

/-! Rules -/

namespace Parse.Keeps

variable {α β : Type} {p : Parse α}

private theorem bracketed (h : Keeps Balanced p) :
    Keeps Bracketed p := h.mono fun _ _ => Balanced.bracketed

/-- An opening bracket and what goes on from it. -/
theorem opened {f : Unit → Parse α} (hf : ∀ u, Keeps Closing (f u)) :
    Keeps Balanced (Parse.mark "<" >>= f) := by
  refine Writes.bind (Writes.mark _) fun u s hs => (hf u).mono fun _ t ht ends i he => ?_
  subst hs
  exact passes_append (passes_singleton fun hi => (he hi).angle _) (ht ends i he)

private theorem opened? {f : Bool → Parse α} (hf : Keeps Closing (f true))
    (hn : Keeps Balanced (f false)) :
    Keeps Balanced (Parse.mark? "<" >>= f) := by
  refine Writes.bind (Writes.mark? _) fun b s hs => ?_
  subst hs
  cases b with
  | false => exact hn
  | true =>
    exact hf.mono fun _ t ht ends i he =>
      passes_append (passes_singleton fun hi => (he hi).angle _) (ht ends i he)

private theorem inside {f : α → Parse β} (hp : Keeps Bracketed p) (hf : ∀ a, Keeps Closing (f a)) :
    Keeps Closing (p >>= f) :=
  Writes.bind hp fun a _ hs => (hf a).mono fun _ _ ht ends i he =>
    passes_append (hs ends i) (ht ends i he)

private theorem closing_mark : Closing (Token.marks ">".toList) := fun _ _ _ =>
  passes_singleton fun hi => absurd hi (Nat.succ_ne_zero _)

private theorem close : Keeps Closing (Parse.mark ">") := mark closing_mark

private theorem closed {f : Unit → Parse α} (hf : ∀ u, Keeps Balanced (f u)) :
    Keeps Closing (Parse.mark ">" >>= f) := by
  refine Writes.bind (Writes.mark _) fun u s hs => (hf u).mono fun _ t ht ends i he => ?_
  subst hs
  exact passes_append (closing_mark ends i he) (ht ends i he)

private theorem colons : Keeps Balanced (Parse.mark "::") := mark (balanced_of_isPlain rfl)

private theorem colons? : Keeps Balanced (Parse.mark? "::") := mark? (balanced_of_isPlain rfl)

private theorem lifetime : Keeps Bracketed Parse.lifetime := by
  rintro ⟨ahead, behind⟩ u d h
  rw [Parse.lifetime, require_sees] at h
  split at h
  · rename_i hl
    unfold Ahead.lifetime at hl
    split at hl
    · rename_i he
      cases he
      cases h
      exact ⟨[_, _], rfl, fun _ _ _ _ => rfl⟩
    · cases hl
  · cases h

private theorem lifetime? : Keeps Bracketed Parse.lifetime? :=
  bind sees fun _ => ite (bind lifetime fun _ => pure) pure

private theorem literal : Keeps Bracketed Parse.literal := by
  rintro ⟨ahead, behind⟩ u d h
  rw [Parse.literal, require_sees] at h
  split at h
  · rename_i hl
    unfold Ahead.literal at hl
    split at hl
    · rename_i he
      cases he
      cases h
      exact ⟨[_], rfl, fun _ _ _ _ => rfl⟩
    · rename_i he
      cases he
      cases h
      exact ⟨[_], rfl, fun _ _ _ _ => rfl⟩
    · rename_i he
      cases he
      cases h
      exact ⟨[_, _], rfl, fun _ _ _ _ => rfl⟩
    · cases hl
  · cases h

end Parse.Keeps

/-- That the types and bounds that a grammar reads are balanced. -/
structure Grammar.KeepsAngles (g : Grammar) : Prop where
  type : ∀ plus, Keeps Bracketed (g (.type plus))
  bound : ∀ capture constant, Keeps Bracketed (g (.bound capture constant))

variable {g : Grammar}

namespace Path

open Keeps

private theorem keeps_outerAttributes : Keeps Bracketed (outerAttributes g) :=
  bind (repeated fun _ => bind sees fun _ =>
    ite (bind (bind (mark fun _ _ _ _ => rfl) fun _ => group) fun _ => pure) pure) fun _ => pure

private theorem keeps_constant : Keeps Bracketed (constant g) :=
  bind sees fun _ => ite literal <| bind sees fun _ => ite (bind ident fun _ => pure) group

variable (hg : g.KeepsAngles)

include hg

private theorem keeps_boundsUntil (stop : List Token → Bool) :
    Keeps Bracketed (boundsUntil g stop) :=
  bind (repeated fun _ => bind sees fun _ => ite pure <| bind (hg.bound _ _) fun _ =>
    bind (mark? fun _ _ _ _ => rfl) fun _ => pure) fun _ => pure

private theorem keeps_argument : Keeps Bracketed (argument g) := by
  refine bind sees fun _ => ite (bind lifetime fun _ => pure) ?_
  refine bind sees fun _ => ite (bind keeps_constant fun _ => pure) ?_
  refine bind (hg.type true) fun form => ite ?_ pure
  refine bind (mark? fun _ _ _ _ => rfl) fun _ => ite ?_ ?_
  · exact bind sees fun _ => ite (bind keeps_constant fun _ => pure)
      (bind (hg.type true) fun _ => pure)
  · exact bind (mark? fun _ _ _ _ => rfl) fun _ =>
      ite (bind (keeps_boundsUntil hg _) fun _ => pure) pure

omit hg in
private theorem bracketed_arrange {args : List Argument} (h : ∀ a ∈ args, Bracketed a.tokens) :
    Bracketed (arrange args) := by
  have hc (b : Bool) : Bracketed (if b then [.mark ',' .alone] else []) := by
    cases b <;> exact fun _ _ _ _ => rfl
  have hn (b : Bool) : Bracketed (if b then [] else [.mark ',' .alone]) := by
    cases b <;> exact fun _ _ _ _ => rfl
  -- both rounds, over lifetimes and over all else, add arguments and commas only
  refine List.foldlRecOn (motive := fun out : List Token × Bool => Bracketed out.1) _ _ ?_ ?_
  · refine List.foldlRecOn (motive := fun out : List Token × Bool => Bracketed out.1) _ _ Joins.nil ?_
    intro out ho a ha
    exact Joins.append _ _ (Joins.append _ _ ho (h a (List.mem_filter.mp ha).1)) (hc a.hasComma)
  · intro out ho a ha
    exact Joins.append _ _ (Joins.append _ _ (Joins.append _ _ ho (hn out.2))
      (h a (List.mem_filter.mp ha).1)) (hc a.hasComma)

private theorem keeps_angleArguments : Keeps Balanced (angleArguments g) := by
  refine bind colons? fun _ => opened fun _ => ?_
  refine Writes.bind (Writes.repeated (P := Bracketed)
    (I := fun args : List Argument => ∀ a ∈ args, Bracketed a.tokens) ?_ ?_) fun args s hs => ?_
  · intro args hargs
    refine Writes.bind Writes.sees fun _ s hs => Writes.ite (fun _ => ?_) fun _ => ?_ <;> subst hs
    · exact Writes.pure ⟨hargs, Joins.nil⟩
    · refine Writes.bind (Writes.captured (keeps_argument hg)) fun found s hs => ?_
      obtain ⟨isLifetime, tokens⟩ := found
      obtain ⟨rfl, hf⟩ := hs
      refine Writes.bind Writes.sees fun _ s hs => Writes.ite (fun _ => ?_) fun _ => ?_ <;> subst hs
      · exact Writes.pure ⟨List.forall_mem_cons.mpr ⟨hf, hargs⟩, Joins.nil⟩
      · refine Writes.bind (captured (P := Bracketed)) fun _ s hs => Writes.pure ?_
        exact ⟨List.forall_mem_cons.mpr ⟨hf, hargs⟩, Joins.append s [] hs Joins.nil⟩
  · exact fun a ha => absurd ha List.not_mem_nil
  · refine Writes.bind (Writes.write _) fun _ t ht => close.mono fun _ u hu ends i he => ?_
    subst ht
    have ha : Bracketed (arrange args.reverse) :=
      bracketed_arrange fun a h => hs.1 a (List.mem_reverse.mp h)
    exact passes_append (hs.2 ends i) (passes_append (ha ends i) (hu ends i he))

private theorem keeps_segment : Keeps Balanced (segment g false) := by
  refine bind sees fun _ => ite (bind anyWord fun _ => pure) ?_
  refine bind key? fun _ => ite (bind ident fun _ => ?_) ?_
  all_goals
    exact bind sees fun _ => ite (bind (keeps_angleArguments hg) fun _ => pure) pure

private theorem keeps_further (form : PathForm) : Keeps Balanced (further g false form) :=
  repeated fun _ => bind sees fun _ =>
    ite (bind colons fun _ => bind (keeps_segment hg) fun _ => pure) pure

private theorem keeps_unqualified : Keeps Balanced (unqualified g false) :=
  bind colons? fun _ => bind (keeps_segment hg) fun _ => keeps_further hg _

private theorem keeps_any : Keeps Balanced (any g false) := by
  refine opened? ?_ (keeps_unqualified hg)
  refine inside (hg.type true) fun _ => inside key? fun _ =>
    ite (inside (keeps_unqualified hg).bracketed fun _ => ?_) ?_
  all_goals
    exact closed fun _ => bind colons fun _ => bind (keeps_segment hg) fun _ =>
      repeated fun _ => bind colons? fun _ => ite (bind (keeps_segment hg) fun _ => pure) pure

private theorem keeps_returned (plus : Bool) : Keeps Bracketed (returned g plus) :=
  bind (mark? fun _ _ _ _ => rfl) fun _ => ite (bind (hg.type plus) fun _ => pure) pure

private theorem keeps_parenArguments : Keeps Bracketed (parenArguments g) := by
  refine bind sees fun _ => ite (bind captured fun _ => ?_) ?_
  all_goals exact bind group fun _ => keeps_returned hg false

end Path

namespace Types

open Keeps

private theorem keeps_boundLifetimes : Keeps Bracketed (boundLifetimes g) :=
  (bind key fun _ => opened fun _ => inside (separated (fun _ _ _ _ => rfl)
    (bind Path.keeps_outerAttributes fun _ => lifetime)) fun _ => close : Keeps Balanced _).bracketed

private theorem keeps_boundLifetimes? : Keeps Bracketed (boundLifetimes? g) :=
  bind sees fun _ => ite (bind keeps_boundLifetimes fun _ => pure) pure

private theorem keeps_captures : Keeps Bracketed captures :=
  (bind key fun _ => opened fun _ => inside (separated (fun _ _ _ _ => rfl)
    (bind lifetime? fun _ => ite (bind key? fun _ => ite (bind ident fun _ => pure) pure) pure))
      fun _ => close : Keeps Balanced _).bracketed

private theorem keeps_linkage : Keeps Bracketed linkage :=
  bind key? fun _ => ite (bind sees fun _ => ite literal pure) pure

variable (hg : g.KeepsAngles)

include hg

private theorem keeps_traitBound (constant : Bool) : Keeps Bracketed (traitBound g constant) := by
  refine bind keeps_boundLifetimes? fun _ => bind sees fun _ => ?_
  refine ite (bind group fun _ => bind require fun _ => ?_)
    (bind key? fun _ => ite (bind require fun _ => ?_) ?_)
  all_goals
    refine bind (mark? fun _ _ _ _ => rfl) fun _ => ite (bind keeps_boundLifetimes? fun _ => ?_)
      (bind pure fun _ => ?_)
  all_goals
    exact bind (Path.keeps_unqualified hg).bracketed fun _ => ite (bind sees fun _ =>
      ite (bind (Path.keeps_parenArguments hg) fun _ => require) require) require

private theorem keeps_boundRule (capture constant : Bool) :
    Keeps Bracketed (boundRule g capture constant) := by
  refine bind lifetime? fun _ => ite pure <| bind sees fun _ => ite ?_ <| bind sees fun _ => ite ?_ ?_
  · exact bind keeps_captures fun _ => bind require fun _ => pure
  · exact bind group fun _ => pure
  · exact bind (keeps_traitBound hg constant) fun _ => pure

private theorem keeps_bounds (plus capture constant : Bool) :
    Keeps Bracketed (bounds g plus capture constant) := by
  refine repeated fun _ => bind (hg.bound capture constant) fun _ => ?_
  exact ite (bind (mark? fun _ _ _ _ => rfl) fun _ => ite (bind sees fun _ => pure) pure)
    (bind pure fun _ => ite (bind sees fun _ => pure) pure)

private theorem keeps_furtherBounds : Keeps Bracketed (furtherBounds g) :=
  repeated fun _ => bind (mark? fun _ _ _ _ => rfl) fun _ =>
    ite (bind (hg.bound false false) fun _ => pure) pure

private theorem keeps_furtherBounds? : Keeps Bracketed (furtherBounds? g) :=
  repeated fun _ => bind (mark? fun _ _ _ _ => rfl) fun _ =>
    ite (bind sees fun _ => ite (bind (hg.bound false false) fun _ => pure) pure) pure

private theorem keeps_parenthesized (plus : Bool) : Keeps Bracketed (parenthesized g plus) := by
  refine bind group fun found => ?_
  cases found with
  | tuple => exact pure
  | lifetimes => exact pure
  | optional => exact bind (keeps_furtherBounds hg) fun _ => pure
  | single form =>
    exact bind sees fun _ => ite (bind (keeps_furtherBounds hg) fun _ => pure) pure

private theorem keeps_functionPointer : Keeps Bracketed (functionPointer g) :=
  bind key? fun _ => bind keeps_linkage fun _ => bind key fun _ => bind group fun _ =>
    bind (Path.keeps_returned hg false) fun _ => pure

private theorem keeps_pathType : Keeps Bracketed (pathType g) := by
  refine bind (Path.keeps_any hg).bracketed fun _ => repeated fun _ => bind sees fun _ => ite ?_ pure
  exact bind (Path.keeps_parenArguments hg) fun _ =>
    ite (bind (Path.keeps_further hg _).bracketed fun _ => pure) pure

private theorem keeps_named (binder plus : Bool) : Keeps Bracketed (named g binder plus) := by
  refine bind (keeps_pathType hg) fun _ => ite pure ?_
  refine bind sees fun _ =>
    ite (bind (mark fun _ _ _ _ => rfl) fun _ => bind anyGroup fun _ => pure) ?_
  refine bind sees fun _ => ite (bind (keeps_furtherBounds? hg) fun _ => pure) ?_
  exact ite pure (ite pure pure)

private theorem keeps_typeRule (plus : Bool) : Keeps Bracketed (typeRule g plus) := by
  refine bind keeps_boundLifetimes? fun _ => ite (bind sees fun _ => bind require fun _ => ?_) ?_
  all_goals
    refine bind sees fun _ => ite (keeps_parenthesized hg plus) ?_
    refine bind sees fun _ => ite (bind (keeps_functionPointer hg) fun _ => pure) ?_
    refine bind sees fun _ => ite (keeps_named hg _ plus) ?_
    refine bind key? fun _ => ite (bind (mark? fun _ _ _ _ => rfl) fun _ =>
      bind (keeps_bounds hg _ _ _) fun _ => bind require fun _ => pure) ?_
    refine bind sees fun _ => ite (bind group fun _ => pure) ?_
    refine bind (mark? fun _ _ _ _ => rfl) fun _ => ite (bind key? fun _ =>
      ite (bind key fun _ => bind (hg.type false) fun _ => pure)
        (bind (hg.type false) fun _ => pure)) ?_
    refine bind (mark? fun _ _ _ _ => rfl) fun _ => ite (bind lifetime? fun _ =>
      bind key? fun _ => bind (hg.type false) fun _ => pure) ?_
    refine bind (mark? fun _ _ _ _ => rfl) fun _ => ite pure ?_
    refine bind key? fun _ => ite (bind (keeps_bounds hg _ _ _) fun _ =>
      bind require fun _ => pure) ?_
    exact bind sees fun _ => ite (bind (keeps_bounds hg _ _ _) fun _ =>
      bind require fun _ => pure) (bind key fun _ => pure)

end Types

/-- Every rule for types and bounds is balanced, however deep rules are nested. -/
theorem Grammar.keepsAngles_upTo (depth : Nat) : (Grammar.upTo depth).KeepsAngles := by
  induction depth with
  | zero => exact ⟨fun _ => Writes.failure, fun _ _ => Writes.failure⟩
  | succ depth ih => exact ⟨Types.keeps_typeRule ih, Types.keeps_boundRule ih⟩

theorem balanced_path? {text : String} {ts : List Token} (h : path? text = some ts) :
    Balanced ts := by
  obtain ⟨tokens, _, h⟩ := Option.bind_eq_some_iff.mp h
  obtain ⟨⟨form, printed⟩, hr, he⟩ := Option.bind_eq_some_iff.mp h
  cases he
  unfold recognise whole inside at hr
  split at hr
  · rename_i a behind hp
    cases hr
    obtain ⟨us, hb, hu⟩ := Path.keeps_unqualified (Grammar.keepsAngles_upTo _) _ _ _ hp
    simp only [List.append_nil] at hb
    rw [hb, List.reverse_reverse]
    exact hu
  · cases hr

end Switchboard.Source
