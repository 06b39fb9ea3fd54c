import Switchboard.Proofs.Nesting

/-! Paths that go on. A path ends with a name or with the bracket that closes its arguments, and
whatever is read in front of that token is read in the same way when names follow it. So a path goes
on with any names that may be its segments. -/

namespace Switchboard.Source

open Parse NamePath

/-- The last token of a path and the names that follow it. -/
inductive Ending
  | word (w : Word) (names : List Word)
  /-- A bracket with its spacing at the end of the path and in front of the names. -/
  | angle (s r : Spacing) (names : List Word)

namespace Ending

def names : Ending → List Word
  | .word _ names | .angle _ _ names => names

/-- The last token of the path. -/
def last : Ending → Token
  | .word w _ => .word w
  | .angle s _ _ => .mark '>' s

/-- The names, with two colons in front of each. -/
def later (e : Ending) : List Token := links e.names

/-- The last token in front of the names, and they. -/
def more : Ending → List Token
  | .word w names => .word w :: links names
  | .angle _ r names => .mark '>' r :: links names

end Ending

variable {e : Ending}

/-! ## Tests -/

/-- That a test does not look beyond the last token of a path. -/
class Blind (e : Ending) (test : List Token → Bool) : Prop where
  eq : ∀ us, test (us ++ e.more) = test (us ++ [e.last])

namespace Blind

variable {a b : List Token → Bool}

instance [ha : Blind e a] [hb : Blind e b] : Blind e fun ts => a ts && b ts :=
  ⟨fun us => by rw [ha.eq, hb.eq]⟩

instance [ha : Blind e a] [hb : Blind e b] : Blind e fun ts => a ts || b ts :=
  ⟨fun us => by rw [ha.eq, hb.eq]⟩

instance [ha : Blind e a] : Blind e fun ts => !a ts := ⟨fun us => by rw [ha.eq]⟩

instance (b : Bool) : Blind e fun _ => b := ⟨fun _ => rfl⟩

/-- A test of the first token, to which all brackets are the same. -/
theorem of_head (hw : ∀ w ts, a (.word w :: ts) = a [.word w])
    (hm : ∀ s r ts, a (.mark '>' r :: ts) = a [.mark '>' s])
    (hl : ∀ t us us', a (t :: us) = a (t :: us')) : Blind e a where
  eq us := by
    cases us with
    | nil =>
      cases e with
      | word w names => exact hw w _
      | angle s r names => exact hm s r _
    | cons t us => exact hl t _ _

instance (k : String) : Blind e (Ahead.key k) :=
  of_head (fun _ _ => rfl) (fun _ _ _ => rfl) fun t _ _ => by cases t <;> rfl

instance (ks : List String) : Blind e fun ts => ks.any fun k => Ahead.key k ts :=
  of_head (fun _ _ => rfl) (fun _ _ _ => rfl) fun t _ _ => by cases t <;> rfl

instance : Blind e Ahead.ident :=
  of_head (fun _ _ => rfl) (fun _ _ _ => rfl) fun t _ _ => by cases t <;> rfl

instance : Blind e Ahead.anyWord :=
  of_head (fun _ _ => rfl) (fun _ _ _ => rfl) fun t _ _ => by cases t <;> rfl

instance (d : Delimiter) : Blind e (Ahead.group d) :=
  of_head (fun _ _ => rfl) (fun _ _ _ => rfl) fun t _ _ => by cases t <;> rfl

instance : Blind e Ahead.string :=
  of_head (fun _ _ => rfl) (fun _ _ _ => rfl) fun t _ _ => by cases t <;> rfl

/-- A test of what is behind one or two tokens. The colons in front of a name do not pass it, nor
does nothing. -/
theorem drop {n : Nat} (hb : Blind e a) (hn : n ≤ 2) (h : a [] = false)
    (hc : ∀ s ts, a (.mark ':' s :: ts) = false) : Blind e fun ts => a (ts.drop n) where
  eq us := by
    by_cases hl : n ≤ us.length
    · rw [List.drop_append_of_le_length hl, List.drop_append_of_le_length hl, hb.eq]
    · obtain ⟨k, rfl⟩ : ∃ k, n = us.length + (k + 1) := ⟨n - us.length - 1, by omega⟩
      rw [List.drop_length_add_append, List.drop_length_add_append]
      have hlater (ws : List Word) : a ((links ws).drop k) = false := by
        match ws, k, hn with
        | [], k, _ => rw [show links [] = [] from rfl, List.drop_nil, h]
        | w :: ws, 0, _ => exact hc _ _
        | w :: ws, 1, _ => exact hc _ _
        | w :: ws, k + 2, hn => omega
      cases e with
      | word w names => simpa [Ending.more, h] using hlater names
      | angle s r names => simpa [Ending.more, h] using hlater names

/-- Marks of which none but the last is a closing bracket. -/
theorem marksAre {cs : List Char} (hc : '>' ∉ cs.dropLast) : Blind e (Ahead.marksAre cs) where
  eq us := by
    induction cs generalizing us with
    | nil => rfl
    | cons c cs ih =>
      cases cs with
      | nil =>
        have hone : Blind e (Ahead.marksAre [c]) :=
          of_head (fun _ _ => rfl) (fun _ _ _ => rfl) fun t _ _ => by cases t <;> rfl
        exact hone.eq us
      | cons d cs =>
        obtain ⟨hne, hcs⟩ : c ≠ '>' ∧ '>' ∉ (d :: cs).dropLast := by
          simpa [List.dropLast, eq_comm] using hc
        match us with
        | [] =>
          cases e with
          | word w names => rfl
          | angle s r names =>
            cases r <;> cases s <;> simp [Ending.more, Ending.last, Ahead.marksAre, hne]
        | .mark f .joint :: us =>
          change (c == f && f != '\'' && Ahead.marksAre (d :: cs) (us ++ e.more)) =
            (c == f && f != '\'' && Ahead.marksAre (d :: cs) (us ++ [e.last]))
          rw [ih hcs]
        | .mark f .alone :: us => rfl
        | .word w :: us => rfl
        | .literal l :: us => rfl
        | .group _ _ :: us => rfl

private theorem mark {text : String} (h : '>' ∉ text.toList.dropLast) : Blind e (Ahead.mark text) :=
  marksAre h

instance : Blind e (Ahead.mark "+") := mark (by decide)

instance : Blind e (Ahead.mark ",") := mark (by decide)

instance : Blind e (Ahead.mark ">") := mark (by decide)

instance : Blind e (Ahead.mark "<") := mark (by decide)

instance : Blind e (Ahead.mark "<=") := mark (by decide)

instance : Blind e (Ahead.mark "::") := mark (by decide)

instance : Blind e (Ahead.mark ":") := mark (by decide)

instance : Blind e (Ahead.mark "=") := mark (by decide)

instance : Blind e (Ahead.mark "->") := mark (by decide)

instance : Blind e (Ahead.mark "?") := mark (by decide)

instance : Blind e (Ahead.mark "*") := mark (by decide)

instance : Blind e (Ahead.mark "&") := mark (by decide)

instance : Blind e (Ahead.mark "!") := mark (by decide)

instance : Blind e (Ahead.mark "!=") := mark (by decide)

instance : Blind e (Ahead.mark "#") := mark (by decide)

instance : Blind e (Ahead.mark "-") := mark (by decide)

instance : Blind e fun ts => Ahead.mark "<" (ts.drop 2) :=
  drop inferInstance (by decide) rfl fun _ _ => rfl

instance (d : Delimiter) : Blind e fun ts => Ahead.group d (ts.drop 2) :=
  drop inferInstance (by decide) rfl fun _ _ => rfl

/-- Whether a tick comes next that begins a lifetime. -/
def ticks : List Token → Bool
  | .mark '\'' .joint :: _ => true
  | _ => false

private theorem lifetime_eq (ts : List Token) :
    Ahead.lifetime ts = (ticks ts && Ahead.anyWord (ts.drop 1)) := by
  unfold Ahead.lifetime
  split
  · rfl
  · rename_i hn
    unfold ticks
    split
    · rename_i ts
      rcases ts with _ | ⟨_ | _ | _ | _, ts⟩
      all_goals first | rfl | simp at hn
    · rfl

instance : Blind e ticks :=
  of_head (fun _ _ => rfl) (fun _ _ _ => rfl) fun t _ _ => by unfold ticks; split <;> simp_all

instance : Blind e Ahead.lifetime := by
  have hword : Blind e fun ts => Ahead.anyWord (ts.drop 1) :=
    drop inferInstance (by decide) rfl fun _ _ => rfl
  rw [funext lifetime_eq]
  infer_instance

instance : Blind e fun ts => Ahead.lifetime ts && !Ahead.mark "+" (Ahead.later ts) := by
  have hplus : Blind e fun ts => Ahead.mark "+" (ts.drop 2) :=
    drop inferInstance (by decide) rfl fun _ _ => rfl
  have heq (ts : List Token) : (Ahead.lifetime ts && !Ahead.mark "+" (Ahead.later ts)) =
      (Ahead.lifetime ts && !Ahead.mark "+" (ts.drop 2)) := by
    unfold Ahead.lifetime
    split <;> rfl
  rw [funext heq]
  infer_instance

/-- Whether a literal that is a number comes next. -/
def number : List Token → Bool
  | .literal text :: _ => Ahead.isNumber text
  | _ => false

/-- Whether a literal value comes next that has no sign. -/
def unsigned : List Token → Bool
  | .literal _ :: _ => true
  | .word w :: _ => w.is "true" || w.is "false"
  | _ => false

private theorem literal_eq (ts : List Token) :
    Ahead.literal ts = (unsigned ts || (Ahead.mark "-" ts && number (ts.drop 1))) := by
  rcases ts with _ | ⟨_ | ⟨c, s⟩ | _ | _, ts⟩
  · rfl
  · simp [Ahead.literal, unsigned, Ahead.mark, Ahead.marksAre]
  · by_cases hc : c = '-'
    · subst hc
      rcases ts with _ | ⟨_ | _ | _ | _, ts⟩ <;> rfl
    · have hm : Ahead.mark "-" (.mark c s :: ts) = false := by
        simp [Ahead.mark, Ahead.marksAre, Ne.symm hc]
      rw [hm]
      unfold Ahead.literal
      split <;> simp_all [unsigned]
  · rfl
  · rfl

instance : Blind e Ahead.literal := by
  have hnumber : Blind e number :=
    of_head (fun _ _ => rfl) (fun _ _ _ => rfl) fun t _ _ => by cases t <;> rfl
  have hsigned : Blind e fun ts => number (ts.drop 1) :=
    drop hnumber (by decide) rfl fun _ _ => rfl
  have hunsigned : Blind e unsigned :=
    of_head (fun _ _ => rfl) (fun _ _ _ => rfl) fun t _ _ => by cases t <;> rfl
  rw [funext literal_eq]
  infer_instance

end Blind

/-! ## Rules -/

/-- That a rule which leaves the last token of a path reads the same if names follow the path. -/
class Extends (e : Ending) {α : Type} (p : Parse α) : Prop where
  below : Below p p
  run : ∀ {us vs behind behind' a},
    p ⟨us ++ [e.last], behind⟩ = some (a, ⟨vs ++ [e.last], behind'⟩) →
      p ⟨us ++ e.more, behind⟩ = some (a, ⟨vs ++ e.more, behind'⟩)

namespace Extends

variable {α β σ : Type} {p q : Parse α} {f : α → Parse β}

instance (a : α) : Extends e (pure a : Parse α) where
  below := inferInstance
  run {us vs behind behind' b} h := by
    change some (a, Cursor.mk (us ++ [e.last]) behind) = _ at h
    simp only [Option.some.injEq, Prod.mk.injEq, Cursor.mk.injEq] at h
    obtain ⟨rfl, hv, rfl⟩ := h
    rw [List.append_cancel_right hv]
    rfl

instance (test : List Token → Bool) [ht : Blind e test] : Extends e (sees test) where
  below := inferInstance
  run {us vs behind behind' b} h := by
    change some (test (us ++ [e.last]), Cursor.mk (us ++ [e.last]) behind) = _ at h
    simp only [Option.some.injEq, Prod.mk.injEq, Cursor.mk.injEq] at h
    obtain ⟨ha, hv, hb⟩ := h
    obtain rfl := List.append_cancel_right hv
    subst hb
    change some (test (us ++ e.more), Cursor.mk (us ++ e.more) behind) = _
    rw [ht.eq, ha]

instance : Extends e (failure : Parse α) := ⟨inferInstance, fun h => by cases h⟩

private theorem bind (hp : Extends e p) (hf : ∀ a, Extends e (f a)) : Extends e (p >>= f) where
  below := .bind hp.below fun a => (hf a).below
  run {us vs behind behind' b} h := by
    obtain ⟨⟨a, c⟩, ha, hb⟩ := Option.bind_eq_some_iff.mp h
    obtain ⟨front, _, hfront, -⟩ := (hf a).below.run hb
    obtain ⟨ahead, between⟩ := c
    obtain rfl : ahead = (front ++ vs) ++ [e.last] := by rw [List.append_assoc]; exact hfront
    change (p ⟨us ++ e.more, behind⟩).bind _ = _
    rw [hp.run ha]
    exact (hf a).run hb

instance [Extends e p] [∀ a, Extends e (f a)] : Extends e (p >>= f) :=
  .bind inferInstance inferInstance

instance (b : Prop) [Decidable b] [hp : Extends e p] [hq : Extends e q] :
    Extends e (if b then p else q) := by
  by_cases hb : b
  · rwa [if_pos hb]
  · rwa [if_neg hb]

instance (b : Bool) : Extends e (require b) := by
  unfold require
  infer_instance

instance : Extends e one where
  below := inferInstance
  run {us vs behind behind' t} h := by
    cases us with
    | nil =>
      have := congrArg List.length (Cursor.mk.inj (Prod.mk.inj (Option.some.inj h)).2).1
      simp at this
    | cons u us =>
      obtain ⟨rfl, hc⟩ := Prod.mk.inj (Option.some.inj h)
      obtain ⟨hv, rfl⟩ := Cursor.mk.inj hc
      obtain rfl := List.append_cancel_right hv
      rfl

instance (ts : List Token) : Extends e (write ts) where
  below := inferInstance
  run {us vs behind behind' t} h := by
    obtain ⟨-, hc⟩ := Prod.mk.inj (Option.some.inj h)
    obtain ⟨hv, rfl⟩ := Cursor.mk.inj hc
    obtain rfl := List.append_cancel_right hv
    rfl

instance (text : String) [ht : Blind e (Ahead.mark text)] : Extends e (mark text) where
  below := inferInstance
  run {us vs behind behind' t} h := by
    unfold mark at h ⊢
    split at h
    · rename_i hm
      obtain ⟨-, hc⟩ := Prod.mk.inj (Option.some.inj h)
      obtain ⟨hv, rfl⟩ := Cursor.mk.inj hc
      have hl : text.toList.length ≤ us.length := by
        have := congrArg List.length hv
        simp at this
        omega
      simp only [List.drop_append_of_le_length hl] at hv ⊢
      rw [List.append_cancel_right hv, if_pos (by rw [ht.eq]; exact hm)]
    · cases h

instance (text : String) [Blind e (Ahead.mark text)] : Extends e (mark? text) := by
  unfold mark?
  infer_instance

instance : Extends e anyWord := by
  unfold anyWord
  refine .bind inferInstance fun t => ?_
  cases t <;> infer_instance

instance : Extends e ident := by
  unfold ident
  infer_instance

instance (text : String) : Extends e (key text) := by
  unfold key
  infer_instance

instance (text : String) : Extends e (key? text) := by
  unfold key?
  infer_instance

instance : Extends e lifetime := by
  unfold lifetime
  infer_instance

instance : Extends e lifetime? := by
  unfold lifetime?
  infer_instance

instance : Extends e literal := by
  unfold literal
  dsimp only
  infer_instance

/-- A group is read as a whole, whatever is read of its inside. -/
instance (d : Delimiter) [hp : Below p p] : Extends e (group d p) where
  below := inferInstance
  run {us vs behind behind' a} h := by
    obtain ⟨body, printed, hc, hin⟩ := ahead_of_group h
    cases us with
    | nil => cases e <;> cases hc
    | cons u us =>
      obtain ⟨rfl, hv⟩ := List.cons.inj hc
      obtain rfl := List.append_cancel_right hv
      simp only [group, List.cons_append, hin, if_true, Option.map_some, Option.some.injEq,
        Prod.mk.injEq, Cursor.mk.injEq, true_and] at h ⊢
      exact h

instance : Extends e anyGroup := by
  unfold anyGroup
  refine .bind inferInstance fun t => ?_
  cases t <;> infer_instance

instance [hp : Extends e p] : Extends e (captured p) where
  below := have := hp.below; inferInstance
  run {us vs behind behind' r} h := by
    obtain ⟨⟨a, ahead, written⟩, ha, hc⟩ := Option.map_eq_some_iff.mp h
    obtain ⟨rfl, hcursor⟩ := Prod.mk.inj hc
    obtain ⟨rfl, rfl⟩ := Cursor.mk.inj hcursor
    change (p ⟨us ++ e.more, []⟩).map _ = _
    rw [hp.run ha]
    rfl

private theorem steps {step : σ → Parse (σ × Bool)} (h : ∀ s, Extends e (step s)) (n : Nat)
    (s : σ) :
    Extends e (Parse.steps step n s) := by
  induction n generalizing s with
  | zero => exact inferInstanceAs (Extends e failure)
  | succ n ih =>
    unfold Parse.steps
    infer_instance

/-- Steps are counted by the tokens ahead. More tokens only allow more steps. -/
theorem repeated {step : σ → Parse (σ × Bool)} (h : ∀ s, Extends e (step s)) (s : σ) :
    Extends e (Parse.repeated step s) where
  below := .repeated (fun s => (h s).below) s
  run {us vs behind behind' a} hr := by
    change Parse.steps step ((us ++ [e.last]).length + 1) s _ = _ at hr
    change Parse.steps step ((us ++ e.more).length + 1) s _ = _
    refine Reads.steps_mono ?_ ((steps h _ s).run hr)
    have : e.more.length = e.later.length + 1 := by cases e <;> rfl
    simp only [List.length_append, List.length_singleton]
    omega

instance (s : σ) {step : σ → Parse (σ × Bool)} [∀ s, Extends e (step s)] :
    Extends e (Parse.repeated step s) :=
  .repeated inferInstance s

instance (sep : String) [Blind e (Ahead.mark sep)] (stop : List Token → Bool) [Blind e stop]
    [Extends e p] : Extends e (separated sep stop p) := by
  unfold separated
  infer_instance

end Extends

/-! ## Types -/

/-- That the types and bounds of a grammar which leave the last token of a path are read in the same
way if names follow the path. -/
class Grammar.Extends (e : Ending) (g : Grammar) : Prop where
  type : ∀ plus, Source.Extends e (g (.type plus))
  bound : ∀ capture constant, Source.Extends e (g (.bound capture constant))

variable {g : Grammar} [hd : g.Deepens g] [hg : g.Extends e]

instance : Extends e g.type := hg.type true

instance : Extends e g.typeNoPlus := hg.type false

instance (capture constant : Bool) : Extends e (g.bound capture constant) :=
  hg.bound capture constant

set_option synthInstance.maxSize 1000000
set_option synthInstance.maxHeartbeats 200000

namespace Path

instance : Extends e (oneAttribute g) := by
  unfold oneAttribute
  infer_instance

instance : Extends e (outerAttributes g) := by
  unfold outerAttributes
  infer_instance

instance : Extends e (block g) := by
  unfold block
  infer_instance

instance : Extends e (constant g) := by
  unfold constant
  infer_instance

instance : Blind e beginsConstant := by
  unfold beginsConstant
  infer_instance

instance (stop : List Token → Bool) [Blind e stop] : Extends e (boundsUntil g stop) := by
  unfold boundsUntil
  infer_instance

instance : Extends e (argument g) := by
  unfold argument
  dsimp only
  infer_instance

instance : Extends e (angleArguments g) := by
  unfold angleArguments
  infer_instance

instance (inExpr : Bool) : Extends e (segment g inExpr) := by
  unfold segment
  dsimp only
  infer_instance

instance : Blind e goesOn := by
  unfold goesOn
  infer_instance

instance (inExpr : Bool) (form : PathForm) : Extends e (further g inExpr form) := by
  unfold further
  infer_instance

instance (inExpr : Bool) : Extends e (unqualified g inExpr) := by
  unfold unqualified
  infer_instance

instance (inExpr : Bool) : Extends e (any g inExpr) := by
  unfold any
  dsimp only
  infer_instance

instance : Blind e opensParen := by
  unfold opensParen
  infer_instance

instance (plus : Bool) : Extends e (returned g plus) := by
  unfold returned
  refine .bind inferInstance fun found => ?_
  cases found with
  | false => exact inferInstanceAs (Extends e (pure none))
  | true =>
    have hform (form : TypeForm) : Extends e (pure (some form) : Parse (Option TypeForm)) :=
      inferInstance
    exact .bind (hg.type plus) hform

instance : Extends e (parenArguments g) := by
  unfold parenArguments
  dsimp only
  infer_instance

end Path

namespace Types

instance : Extends e (boundLifetimes g) := by
  unfold boundLifetimes
  infer_instance

instance : Extends e (boundLifetimes? g) := by
  unfold boundLifetimes?
  infer_instance

instance : Blind e followsBinder := by
  unfold followsBinder
  infer_instance

instance (constant : Bool) : Blind e (beginsBound constant) := by
  unfold beginsBound
  infer_instance

instance : Extends e captures := by
  unfold captures
  infer_instance

instance (constant : Bool) : Extends e (traitBound g constant) := by
  unfold traitBound
  dsimp only
  infer_instance

instance (capture constant : Bool) : Extends e (boundRule g capture constant) := by
  unfold boundRule
  infer_instance

instance (plus capture constant : Bool) : Extends e (bounds g plus capture constant) := by
  unfold bounds
  dsimp only
  infer_instance

instance : Extends e (furtherBounds g) := by
  unfold furtherBounds
  infer_instance

instance : Extends e (furtherBounds? g) := by
  unfold furtherBounds?
  infer_instance

instance (plus : Bool) : Extends e (parenthesized g plus) := by
  unfold parenthesized
  refine .bind inferInstance fun found => ?_
  cases found <;> infer_instance

instance : Extends e linkage := by
  unfold linkage
  infer_instance

instance : Extends e (functionPointer g) := by
  unfold functionPointer
  infer_instance

instance : Extends e (pathType g) := by
  unfold pathType
  infer_instance

instance : Blind e callsMacro := by
  unfold callsMacro
  infer_instance

instance (binder plus : Bool) : Extends e (named g binder plus) := by
  unfold named
  infer_instance

instance (plus : Bool) : Extends e (typeRule g plus) := by
  unfold typeRule
  dsimp only
  infer_instance

end Types

namespace Grammar

private theorem extends_upTo (e : Ending) (n : Nat) : (upTo n).Extends e := by
  induction n with
  | zero =>
    exact ⟨fun _ => inferInstanceAs (Source.Extends e failure),
      fun _ _ => inferInstanceAs (Source.Extends e failure)⟩
  | succ n ih =>
    have := deepens_upTo (Nat.le_refl n)
    exact ⟨fun plus => inferInstanceAs (Source.Extends e (Types.typeRule _ plus)),
      fun capture constant =>
        inferInstanceAs (Source.Extends e (Types.boundRule _ capture constant))⟩

end Grammar

/-! ## Ends of paths -/

namespace Parse

variable {α β : Type} {p : Parse α} {f : α → Parse β} {rest : Ending → List Token}

/-- That a rule which reads all tokens ends as a path does, and reads on if names that may be
segments follow, up to some of them. -/
def Closes (rest : Ending → List Token) (p : Parse α) (ts : List Token) : Prop :=
  ∃ us, ∃ e : Ending, ts = us ++ [e.last] ∧ ∀ e' : Ending, e'.last = e.last →
    (∀ w ∈ e'.names, w.isSegment = true) → Accepts p (us ++ e'.more) (rest e')

private theorem Closes.bind (hp : ∀ e, Extends e p) {c d : Cursor} {b : β}
    (h : (p >>= f) c = some (b, d))
    (hf : ∀ a c', f a c' = some (b, d) → Closes rest (f a) c'.ahead) :
    Closes rest (p >>= f) c.ahead := by
  obtain ⟨⟨a, c'⟩, ha, hb⟩ := Option.bind_eq_some_iff.mp h
  obtain ⟨us, e, hd, hall⟩ := hf a c' hb
  obtain ⟨front, _, hc, -⟩ := (hp e).below.run ha
  refine ⟨front ++ us, e, by rw [hc, hd, List.append_assoc], fun e' he hw => ?_⟩
  have hlonger : p ⟨(front ++ us) ++ e'.more, c.behind⟩ = some (a, ⟨us ++ e'.more, c'.behind⟩) := by
    refine (hp e').run ?_
    rw [List.append_assoc, he, ← hd, ← hc]
    exact ha
  obtain ⟨b', hr⟩ := hall e' he hw
  exact ⟨b', ((hp e').below.reads hlonger).bind hr⟩

private theorem closes_mark {c d : Cursor} (h : mark ">" c = some ((), d)) (hn : d.ahead = []) :
    Closes Ending.later (mark ">") c.ahead := by
  obtain ⟨hm, hdrop⟩ := ahead_of_mark h
  rw [hn] at hdrop
  obtain ⟨s, hc⟩ : ∃ s, c.ahead = [.mark '>' s] := by
    rcases hts : c.ahead with _ | ⟨_ | ⟨f, s⟩ | _ | _, ts⟩
    all_goals simp [hts, Ahead.mark, Ahead.marksAre] at hm hdrop
    exact ⟨s, by rw [← hm.1, ← hdrop]⟩
  refine ⟨[], .angle s s [], hc, fun e he _ => ?_⟩
  cases e with
  | word w names => cases he
  | angle t r names => exact ⟨(), .mark rfl⟩

end Parse

namespace Path

open Parse

section

variable {g : Grammar} {inExpr : Bool} {ws : List Word}

/-- A name at the end of a path is a whole segment also if names follow it. -/
theorem reads_last {w : Word} (hw : w.isSegment = true) (ws : List Word) :
    Reads (segment g inExpr) (.word w :: links ws) true (links ws) := by
  have hr : Reads (segment g inExpr) (.word w :: (links ws ++ [])) true (links ws ++ []) :=
    reads_first hw ws rfl
  rwa [List.append_nil] at hr

/-- Names that may be segments go on with a path up to their end. -/
theorem accepts_links (hw : ∀ w ∈ ws, w.isSegment = true) (form : PathForm) :
    Accepts (further g inExpr form) (links ws) [] := by
  induction ws generalizing form with
  | nil => exact ⟨form, reads_further_stop form rfl⟩
  | cons w ws ih =>
    obtain ⟨hw, hws⟩ := List.forall_mem_cons.mp hw
    obtain ⟨form', hr⟩ := ih hws _
    refine ⟨form', reads_further_more rfl (reads_last hw ws) ?_ hr⟩
    simp only [links_cons, List.length_cons]
    omega

end

variable {g : Grammar} [hd : g.Deepens g] [hg : ∀ e, g.Extends e] {inExpr : Bool} {c d : Cursor}

/-- Arguments that end a path leave what follows them. -/
theorem closes_angleArguments (h : angleArguments g c = some ((), d)) (hn : d.ahead = []) :
    Closes Ending.later (angleArguments g) c.ahead := by
  unfold angleArguments at h ⊢
  refine .bind (fun e => inferInstance) h fun _ _ h => ?_
  refine .bind (fun e => inferInstance) h fun _ _ h => ?_
  refine .bind (fun e => inferInstance) h fun _ _ h => ?_
  exact .bind (fun e => inferInstance) h fun _ _ h => closes_mark h hn

/-- A segment that ends a path leaves what follows it. -/
theorem closes_segment {bare : Bool} (h : segment g inExpr c = some (bare, d))
    (hn : d.ahead = []) : Closes Ending.later (segment g inExpr) c.ahead := by
  obtain ⟨ts, behind⟩ := c
  obtain ⟨w, ts, rfl, hs⟩ := begins_of_segment h
  rw [segment_cons, if_neg (by simp [hs])] at h
  split at h
  · rename_i hopens
    obtain ⟨⟨_, d'⟩, ha, he⟩ := Option.map_eq_some_iff.mp h
    obtain ⟨us, e, hts, hall⟩ := closes_angleArguments ha (by rw [← hn, ← (Prod.mk.inj he).2])
    refine ⟨.word w :: us, e, by rw [List.cons_append, ← hts], fun e' he' hnames => ?_⟩
    obtain ⟨_, hr⟩ := hall e' he' hnames
    refine ⟨false, .of_eq fun behind => ?_⟩
    obtain ⟨behind', hb⟩ := hr.exists_eq (.word w :: behind)
    have hblind : Blind e' (opensAngle inExpr) := by
      unfold opensAngle
      infer_instance
    have hopens' : opensAngle inExpr (us ++ e'.more) = opensAngle inExpr ts := by
      rw [hblind.eq, he', ← show ts = _ from hts]
    rw [List.cons_append, segment_cons, hopens', hb, if_neg (by simp [hs]), if_pos hopens]
    exact ⟨behind', rfl⟩
  · cases h
    obtain rfl : ts = [] := hn
    refine ⟨[], .word w [], rfl, fun e he hnames => ?_⟩
    cases e with
    | angle => cases he
    | word v names =>
      obtain rfl : v = w := by cases he; rfl
      exact (reads_last hs names).accepts

/-- A segment of a path and what comes after it, if that goes on with names. -/
theorem exists_of_segment_further {bare : Bool} (form : Bool → PathForm)
    (hs : segment g inExpr c = some (bare, d))
    (hf : d.ahead ≠ [] → Closes (fun _ => []) (further g inExpr (form bare)) d.ahead) :
    ∃ us, ∃ e : Ending, c.ahead = us ++ [e.last] ∧ ∀ e' : Ending, e'.last = e.last →
      (∀ w ∈ e'.names, w.isSegment = true) → ∃ bare mid,
        Reads (segment g inExpr) (us ++ e'.more) bare mid ∧
        mid.length ≤ (us ++ e'.more).length ∧ Accepts (further g inExpr (form bare)) mid [] := by
  by_cases hd : d.ahead = []
  · obtain ⟨us, e, hc, hall⟩ := closes_segment hs hd
    refine ⟨us, e, hc, fun e' he hnames => ?_⟩
    obtain ⟨bare', hr⟩ := hall e' he hnames
    refine ⟨bare', e'.later, hr, ?_, accepts_links hnames _⟩
    have hm : e'.more.length = e'.later.length + 1 := by cases e' <;> rfl
    simp only [List.length_append]
    omega
  · obtain ⟨us, e, hc, hall⟩ := hf hd
    have hbelow : Below (segment g inExpr) (segment g inExpr) := inferInstance
    obtain ⟨front, _, hfront, -⟩ := hbelow.run hs
    refine ⟨front ++ us, e, by rw [hfront, hc, List.append_assoc], fun e' he hnames => ?_⟩
    have hextends : Extends e' (segment g inExpr) := inferInstance
    have hlonger : segment g inExpr ⟨(front ++ us) ++ e'.more, c.behind⟩ =
        some (bare, ⟨us ++ e'.more, d.behind⟩) := by
      refine hextends.run ?_
      rw [List.append_assoc, he, ← hc, ← hfront]
      exact hs
    refine ⟨bare, us ++ e'.more, hbelow.reads hlonger, ?_, hall e' he hnames⟩
    simp only [List.length_append]
    omega

/-- The further segments of a path, if there are any, go on with more of them. -/
theorem closes_further {form form' : PathForm} (h : further g inExpr form c = some (form', d))
    (hn : d.ahead = []) (hc : c.ahead ≠ []) :
    Closes (fun _ => []) (further g inExpr form) c.ahead := by
  have hr := runs_of_repeated h
  clear h
  induction hr with
  | stop hs =>
    rw [sees_bind] at hs
    split at hs
    · obtain ⟨⟨_, _⟩, _, hs⟩ := Option.bind_eq_some_iff.mp hs
      obtain ⟨⟨_, _⟩, _, hs⟩ := Option.bind_eq_some_iff.mp hs
      cases hs
    · cases hs
      exact absurd hn hc
  | @more form _ _ c _ _ hs hr ih =>
    rw [sees_bind] at hs
    split at hs
    · rename_i hgo
      obtain ⟨⟨_, c₁⟩, hmark, hs⟩ := Option.bind_eq_some_iff.mp hs
      obtain ⟨⟨bare, c₂⟩, hseg, hs⟩ := Option.bind_eq_some_iff.mp hs
      cases hs
      obtain ⟨hcolons, hdrop⟩ := ahead_of_mark hmark
      obtain ⟨s, rest, hc'⟩ := exists_colons hcolons
      obtain ⟨us, e, hc₁, hall⟩ := exists_of_segment_further
        (fun bare => { form with
          count := form.count + 1, lastBare := bare, bare := form.bare && bare }) hseg (ih hn)
      have hrest : rest = us ++ [e.last] := by
        rw [← hc₁, hdrop, hc']
        rfl
      refine ⟨.mark ':' .joint :: .mark ':' s :: us, e, ?_, fun e' he hnames => ?_⟩
      · rw [hc', hrest]
        rfl
      · obtain ⟨bare', mid, hr, hl, form'', hlast⟩ := hall e' he hnames
        have hblind : Blind e' goesOn := inferInstance
        refine ⟨form'', reads_further_more ?_ hr (Nat.lt_succ_of_le (Nat.le_succ_of_le hl)) hlast⟩
        rw [hblind.eq, he, ← hgo, hc', hrest]
        rfl
    · cases hs

/-- A path goes on with names that may be its segments. -/
theorem closes_unqualified {form : PathForm} (h : unqualified g inExpr c = some (form, d))
    (hn : d.ahead = []) : Closes (fun _ => []) (unqualified g inExpr) c.ahead := by
  refine .bind (fun e => inferInstance) h fun rooted c₁ h => ?_
  obtain ⟨⟨bare, c₂⟩, hseg, h⟩ := Option.bind_eq_some_iff.mp h
  obtain ⟨us, e, hc, hall⟩ := exists_of_segment_further
    (fun bare => ⟨false, rooted, 1, bare, bare, false⟩) hseg (closes_further h hn)
  refine ⟨us, e, hc, fun e' he hnames => ?_⟩
  obtain ⟨_, _, hr, -, form', hf⟩ := hall e' he hnames
  exact ⟨form', hr.bind hf⟩

end Path

private theorem Token.sizeAll_append (ts us : List Token) :
    sizeAll (ts ++ us) = sizeAll ts + sizeAll us := by
  induction ts with
  | nil => simp [sizeAll]
  | cons t ts ih => simp only [List.cons_append, sizeAll, ih, Nat.add_assoc]

private theorem Ending.sizeAll_last_le (e : Ending) :
    Token.sizeAll [e.last] ≤ Token.sizeAll e.more := by
  cases e <;> simp [last, more, Token.sizeAll, Token.size]

/-- What is read as a path ends with a name or a bracket, and is read as a path also if names that
may be segments follow it. -/
theorem isSome_recognise_path {ts : List Token}
    (h : (recognise (fun g => Path.unqualified g false) ts).isSome = true) :
    ∃ us, ∃ e : Ending, ts = us ++ [e.last] ∧ ∀ e' : Ending, e'.last = e.last →
      (∀ w ∈ e'.names, w.isSegment = true) →
      (recognise (fun g => Path.unqualified g false) (us ++ e'.more)).isSome = true := by
  obtain ⟨form, behind, hr⟩ := isSome_inside_iff.mp h
  have := Grammar.deepens_upTo (Nat.le_refl (8 * Token.sizeAll ts + 8))
  have := fun e => Grammar.extends_upTo e (8 * Token.sizeAll ts + 8)
  obtain ⟨us, e, hts, hall⟩ := Path.closes_unqualified hr rfl
  obtain rfl : ts = us ++ [e.last] := hts
  refine ⟨us, e, rfl, fun e' he hnames => isSome_inside_iff.mpr ?_⟩
  obtain ⟨form', hlonger⟩ := hall e' he hnames
  obtain ⟨behind', hb⟩ := hlonger.exists_eq []
  -- more tokens allow rules to be nested more deeply, which changes nothing of what is read
  have hsize : Token.sizeAll (us ++ [e.last]) ≤ Token.sizeAll (us ++ e'.more) := by
    rw [Token.sizeAll_append, Token.sizeAll_append, ← he]
    exact Nat.add_le_add_left e'.sizeAll_last_le _
  have := Grammar.deepens_upTo (Nat.add_le_add_right (Nat.mul_le_mul_left 8 hsize) 8)
  have hdeeper : Below (Path.unqualified (.upTo (8 * Token.sizeAll (us ++ [e.last]) + 8)) false)
      (Path.unqualified (.upTo (8 * Token.sizeAll (us ++ e'.more) + 8)) false) := inferInstance
  obtain ⟨_, written, _, hw, hq⟩ := hdeeper.run hb
  exact ⟨form', _, hq []⟩

end Switchboard.Source
