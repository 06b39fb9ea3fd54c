import Switchboard.Source.Parse

/-! What a rule of the grammar reads does not depend on what was read before it. So it can be said of
a rule and a sequence alone how far the rule reads, and the rules that are put together read one
after the other. -/

namespace Switchboard.Source

namespace Word

/-- A name that is no keyword is none of them. -/
theorem is_eq_false {w : Word} (h : w.isKeyword = false) {k : String} (hk : k ∈ keywords) :
    w.is k = false := by
  unfold isKeyword at h
  unfold Word.is
  cases hr : w.raw with
  | true => rfl
  | false =>
    have hne : w.text ≠ k := by
      rintro rfl
      simp [hr, hk] at h
    simpa using hne

end Word

namespace Ahead

variable {w : Word}

theorem key_eq_false (h : w.isKeyword = false) {k : String} (hk : k ∈ Word.keywords)
    (ts : List Token) : key k (.word w :: ts) = false :=
  Word.is_eq_false h hk

theorem keys_eq_false (h : w.isKeyword = false) {ks : List String} (hk : ∀ k ∈ ks, k ∈ Word.keywords)
    (ts : List Token) : (ks.any fun k => key k (.word w :: ts)) = false :=
  List.any_eq_false.mpr fun k hmem => by simp [key_eq_false h (hk k hmem)]

end Ahead

namespace Parse

variable {α β σ : Type}

theorem sees_bind (test : List Token → Bool) (f : Bool → Parse α) (c : Cursor) :
    (sees test >>= f) c = f (test c.ahead) c := rfl

theorem key?_word (text : String) (w : Word) (ts behind : List Token) :
    key? text ⟨.word w :: ts, behind⟩ =
      if w.is text then some (true, ⟨ts, .word w :: behind⟩)
      else some (false, ⟨.word w :: ts, behind⟩) := by
  rw [key?, sees_bind]
  change (if w.is text then _ else _ : Parse Bool) _ = _
  cases h : w.is text with
  | true =>
    change ((require (w.is text)) _).bind _ = _
    rw [h]
    rfl
  | false => rfl

theorem ident_word (w : Word) (ts behind : List Token) :
    ident ⟨.word w :: ts, behind⟩ =
      if w.isKeyword then none else some (w, ⟨ts, .word w :: behind⟩) := by
  change (require (!w.isKeyword) _).bind _ = _
  cases w.isKeyword <;> rfl

/-- That a rule reads tokens up to what is left of them, whatever was read before. -/
def Reads (p : Parse α) (ts : List Token) (a : α) (rest : List Token) : Prop :=
  ∀ behind, (p ⟨ts, behind⟩).map (fun r => (r.1, r.2.ahead)) = some (a, rest)

/-- That a rule reads tokens up to what is left of them, to some value. -/
def Accepts (p : Parse α) (ts rest : List Token) : Prop := ∃ a, Reads p ts a rest

namespace Reads

variable {p : Parse α} {f : α → Parse β} {test : List Token → Bool} {g : Bool → Parse β}
  {ts mid rest : List Token} {a : α} {b : β}

theorem exists_eq (h : Reads p ts a rest) (behind : List Token) :
    ∃ behind', p ⟨ts, behind⟩ = some (a, ⟨rest, behind'⟩) := by
  obtain ⟨⟨a', c⟩, hr, he⟩ := Option.map_eq_some_iff.mp (h behind)
  cases he
  exact ⟨c.behind, hr⟩

theorem of_eq (h : ∀ behind, ∃ behind', p ⟨ts, behind⟩ = some (a, ⟨rest, behind'⟩)) :
    Reads p ts a rest := by
  intro behind
  obtain ⟨behind', hb⟩ := h behind
  rw [hb]
  rfl

theorem accepts (h : Reads p ts a rest) : Accepts p ts rest := ⟨a, h⟩

theorem pure : Reads (Pure.pure a : Parse α) ts a ts := fun _ => rfl

theorem bind (hp : Reads p ts a mid) (hf : Reads (f a) mid b rest) : Reads (p >>= f) ts b rest := by
  refine of_eq fun behind => ?_
  obtain ⟨between, hb⟩ := hp.exists_eq behind
  obtain ⟨behind', hr⟩ := hf.exists_eq between
  refine ⟨behind', ?_⟩
  change (p ⟨ts, behind⟩).bind _ = _
  rw [hb]
  exact hr

theorem next {p : Parse Unit} {f : Unit → Parse β} (hp : Reads p ts () mid)
    (hf : Reads (f ()) mid b rest) : Reads (p >>= f) ts b rest :=
  bind hp hf

/-- A rule goes on after another one whose value it passes over. -/
theorem after {q : Parse β} (hp : Accepts p ts mid) (hq : Reads q mid b rest) :
    Reads (p >>= fun _ => q) ts b rest := by
  obtain ⟨a, ha⟩ := hp
  exact ha.bind hq

theorem seen (h : test ts = true) (hg : Reads (g true) ts b rest) :
    Reads (sees test >>= g) ts b rest := by
  refine bind (a := test ts) (fun _ => rfl) ?_
  rw [h]
  exact hg

theorem unseen (h : test ts = false) (hg : Reads (g false) ts b rest) :
    Reads (sees test >>= g) ts b rest := by
  refine bind (a := test ts) (fun _ => rfl) ?_
  rw [h]
  exact hg

theorem require {b : Bool} (h : b = true) : Reads (Parse.require b) ts () ts := by
  subst h
  exact pure

theorem mark {text : String} (h : Ahead.mark text ts = true) :
    Reads (Parse.mark text) ts () (ts.drop text.toList.length) := by
  intro behind
  simp [Parse.mark, h]

theorem write (us ts : List Token) : Reads (Parse.write us) ts () ts := fun _ => rfl

theorem anyWord (w : Word) (ts : List Token) : Reads Parse.anyWord (.word w :: ts) w ts :=
  fun _ => rfl

theorem ident {w : Word} (h : w.isKeyword = false) (ts : List Token) :
    Reads Parse.ident (.word w :: ts) w ts :=
  bind (anyWord w ts) (bind (require (by simp [h])) pure)

theorem key {text : String} {w : Word} (h : w.is text = true) (ts : List Token) :
    Reads (Parse.key text) (.word w :: ts) () ts :=
  bind (anyWord w ts) (require h)

/-- A group is read by what reads its inside to the end. -/
theorem group {d : Delimiter} {body : List Token} (h : Reads p body a []) (ts : List Token) :
    Reads (Parse.group d p) (.group d body :: ts) a ts := by
  intro behind
  obtain ⟨behind', hb⟩ := h.exists_eq []
  simp [Parse.group, Parse.inside, hb]

theorem captured (h : Reads p ts a rest) :
    ∃ printed, Reads (Parse.captured p) ts (a, printed) rest := by
  obtain ⟨behind', hb⟩ := h.exists_eq []
  exact ⟨behind'.reverse, fun _ => by simp [Parse.captured, hb]⟩

theorem mark?_of_true {text : String} (h : Ahead.mark text ts = true) :
    Reads (mark? text) ts true (ts.drop text.toList.length) :=
  seen h (bind (mark h) pure)

theorem mark?_of_false {text : String} (h : Ahead.mark text ts = false) :
    Reads (mark? text) ts false ts :=
  unseen h pure

theorem key?_of_true {text : String} {w : Word} (h : w.is text = true) (ts : List Token) :
    Reads (key? text) (.word w :: ts) true ts :=
  seen (by simpa [Ahead.key, Ahead.word?] using h) (bind (key h ts) pure)

theorem key?_of_false {text : String} (h : Ahead.key text ts = false) :
    Reads (key? text) ts false ts :=
  unseen h pure

section

variable {step : σ → Parse (σ × Bool)} {s s' s'' : σ}

theorem steps_mono {n m : Nat} (hn : n ≤ m) {s : σ} {c : Cursor} {r : σ × Cursor}
    (h : steps step n s c = some r) : steps step m s c = some r := by
  induction n generalizing m s c with
  | zero => cases h
  | succ n ih =>
    obtain ⟨m, rfl⟩ := Nat.exists_eq_succ_of_ne_zero (by omega : m ≠ 0)
    obtain ⟨⟨⟨t, more⟩, d⟩, hstep, hr⟩ := Option.bind_eq_some_iff.mp h
    refine Option.bind_eq_some_iff.mpr ⟨⟨⟨t, more⟩, d⟩, hstep, ?_⟩
    cases more with
    | true => exact ih (by omega) hr
    | false => exact hr

theorem repeated_stop (h : Reads (step s) ts (s', false) rest) :
    Reads (repeated step s) ts s' rest := by
  refine bind (a := ts) (fun _ => rfl) ?_
  exact bind h pure

/-- One more step of a repetition. It reads a token, so the steps that are counted do not run out. -/
theorem repeated_more (h : Reads (step s) ts (s', true) mid) (hl : mid.length < ts.length)
    (hr : Reads (repeated step s') mid s'' rest) : Reads (repeated step s) ts s'' rest := by
  refine of_eq fun behind => ?_
  obtain ⟨between, hb⟩ := h.exists_eq behind
  obtain ⟨behind', hlast⟩ := hr.exists_eq between
  refine ⟨behind', ?_⟩
  have hsteps : steps step (mid.length + 1) s' ⟨mid, between⟩ = some (s'', ⟨rest, behind'⟩) := hlast
  change steps step (ts.length + 1) s ⟨ts, behind⟩ = _
  refine Option.bind_eq_some_iff.mpr ⟨_, hb, ?_⟩
  exact steps_mono (by omega) hsteps

end

end Reads

/-- What a repetition did: steps that ask for another, then one that does not. -/
inductive Runs (step : σ → Parse (σ × Bool)) : σ → Cursor → σ → Cursor → Prop
  | stop {s s' : σ} {c c' : Cursor} : step s c = some ((s', false), c') → Runs step s c s' c'
  | more {s s' s'' : σ} {c c' c'' : Cursor} : step s c = some ((s', true), c') →
      Runs step s' c' s'' c'' → Runs step s c s'' c''

theorem runs_of_repeated {step : σ → Parse (σ × Bool)} {s s' : σ} {c c' : Cursor}
    (h : repeated step s c = some (s', c')) : Runs step s c s' c' := by
  change steps step (c.ahead.length + 1) s c = _ at h
  generalize c.ahead.length + 1 = n at h
  induction n generalizing s c with
  | zero => cases h
  | succ n ih =>
    obtain ⟨⟨⟨t, more⟩, d⟩, hstep, hr⟩ := Option.bind_eq_some_iff.mp h
    cases more with
    | true => exact .more hstep (ih hr)
    | false =>
      cases hr
      exact .stop hstep

/-! What a rule that does not fail has read -/

section

variable {c d : Cursor}

theorem of_ite {b : Bool} {p q : Parse α} {r : α × Cursor} {P : Prop}
    (h : (if b then p else q) c = some r) (hp : p c = some r → P) (hq : q c = some r → P) : P := by
  cases b
  · exact hq h
  · exact hp h

theorem ahead_of_anyWord {w : Word} (h : anyWord c = some (w, d)) : c.ahead = .word w :: d.ahead := by
  obtain ⟨ts, behind⟩ := c
  rcases ts with _ | ⟨_ | _ | _ | _, ts⟩ <;> cases h
  rfl

theorem ahead_of_key {k : String} (h : key k c = some ((), d)) :
    ∃ v, c.ahead = .word v :: d.ahead ∧ v.is k = true := by
  obtain ⟨⟨v, e⟩, hv, h⟩ := Option.bind_eq_some_iff.mp h
  refine ⟨v, ?_, ?_⟩
  all_goals
    dsimp only at h
    unfold require at h
    split at h
  · cases h
    exact ahead_of_anyWord hv
  · cases h
  · assumption
  · cases h

theorem ahead_of_ident {w : Word} (h : ident c = some (w, d)) :
    c.ahead = .word w :: d.ahead ∧ w.isKeyword = false := by
  obtain ⟨⟨v, e⟩, hv, h⟩ := Option.bind_eq_some_iff.mp h
  obtain ⟨⟨_, f⟩, hr, h⟩ := Option.bind_eq_some_iff.mp h
  unfold require at hr
  split at hr
  · rename_i hw
    cases hr
    cases h
    exact ⟨ahead_of_anyWord hv, by simpa using hw⟩
  · cases hr

theorem ahead_of_group {p : Parse α} {a : α} {e : Delimiter} (h : group e p c = some (a, d)) :
    ∃ body printed, c.ahead = .group e body :: d.ahead ∧ inside p body = some (a, printed) := by
  unfold group at h
  split at h
  · rename_i f body rest hc
    split at h
    · rename_i he
      obtain ⟨⟨_, printed⟩, hi, hd⟩ := Option.map_eq_some_iff.mp h
      cases hd
      exact ⟨body, printed, by rw [hc, he], hi⟩
    · cases h
  · cases h

theorem ahead_of_mark {text : String} (h : mark text c = some ((), d)) :
    Ahead.mark text c.ahead = true ∧ d.ahead = c.ahead.drop text.toList.length := by
  unfold mark at h
  split at h
  · rename_i hm
    cases h
    exact ⟨hm, rfl⟩
  · cases h

/-- An optional mark was read, or it was not there and nothing was read. -/
theorem ahead_of_mark? {text : String} {found : Bool} (h : mark? text c = some (found, d)) :
    found = true ∧ mark text c = some ((), d) ∨
      found = false ∧ d = c ∧ Ahead.mark text c.ahead = false := by
  rw [mark?, sees_bind] at h
  split at h
  · obtain ⟨⟨_, _⟩, hm, h⟩ := Option.bind_eq_some_iff.mp h
    cases h
    exact .inl ⟨rfl, hm⟩
  · rename_i hn
    cases h
    exact .inr ⟨rfl, rfl, Bool.not_eq_true _ |>.mp hn⟩

/-- An optional keyword was read, or it was not there and nothing was read. -/
theorem ahead_of_key? {k : String} {found : Bool} (h : key? k c = some (found, d)) :
    found = true ∧ key k c = some ((), d) ∨
      found = false ∧ d = c ∧ Ahead.key k c.ahead = false := by
  rw [key?, sees_bind] at h
  split at h
  · obtain ⟨⟨_, _⟩, hm, h⟩ := Option.bind_eq_some_iff.mp h
    cases h
    exact .inl ⟨rfl, hm⟩
  · rename_i hn
    cases h
    exact .inr ⟨rfl, rfl, Bool.not_eq_true _ |>.mp hn⟩

end

/-! Elements -/

/-- Elements that a rule reads, with a comma between two of them and perhaps after the last. -/
inductive Listed (p : Parse α) : List Token → Prop
  | nil : Listed p []
  | last {ts : List Token} : Accepts p ts [] → ts ≠ [] → Listed p ts
  | cons {ts rest : List Token} : Accepts p ts (.mark ',' .alone :: rest) →
      rest.length + 1 < ts.length → Listed p rest → Listed p ts

/-- Elements that a rule reads, with nothing between them. -/
inductive Sequenced (p : Parse α) : List Token → Prop
  | nil : Sequenced p []
  | cons {ts rest : List Token} : Accepts p ts rest → rest.length < ts.length →
      Sequenced p rest → Sequenced p ts

section

variable {p : Parse α} {ξ : Type} {ts : List Token}

theorem length_lt_append {front rest : List Token} (h : front ≠ []) :
    rest.length < (front ++ rest).length := by
  have := List.length_pos_iff.mpr h
  rw [List.length_append]
  omega

private theorem isEmpty_of_length_lt {ts : List Token} {n : Nat} (h : n < ts.length) :
    ts.isEmpty = false := by
  cases ts with
  | nil => exact absurd h (Nat.not_lt_zero n)
  | cons => rfl

theorem Listed.accepts (h : Listed p ts) : Accepts (commaList p) ts [] := by
  -- what was found before is not looked at by the step, so it may be anything
  suffices hfound : ∀ found, Accepts (repeated (fun found => do
      if ← sees List.isEmpty then return (found, false)
      let a ← p
      if ← sees List.isEmpty then return (a :: found, false)
      mark ","
      return (a :: found, true)) found) ts [] by
    obtain ⟨l, hl⟩ := hfound []
    exact ⟨l.reverse, hl.bind .pure⟩
  induction h with
  | nil => exact fun found => ⟨found, .repeated_stop (.seen rfl .pure)⟩
  | last hp hne =>
    obtain ⟨a, ha⟩ := hp
    refine fun found => ⟨a :: found, .repeated_stop (.unseen ?_ (ha.bind (.seen rfl .pure)))⟩
    simpa using hne
  | cons hp hl _ ih =>
    obtain ⟨a, ha⟩ := hp
    intro found
    obtain ⟨l, hr⟩ := ih (a :: found)
    refine ⟨l, .repeated_more ?_ (Nat.lt_of_succ_lt hl) hr⟩
    exact .unseen (isEmpty_of_length_lt hl) (ha.bind (.unseen rfl (.bind (.mark rfl) .pure)))

theorem Sequenced.accepts (h : Sequenced p ts) : Accepts (untilEnd p) ts [] := by
  suffices hfound : ∀ found, Accepts (repeated (fun found => do
      if ← atEnd then return (found, false)
      let a ← p
      return (a :: found, true)) found) ts [] by
    obtain ⟨l, hl⟩ := hfound []
    exact ⟨l.reverse, hl.bind .pure⟩
  induction h with
  | nil => exact fun found => ⟨found, .repeated_stop (.seen rfl .pure)⟩
  | cons hp hl _ ih =>
    obtain ⟨a, ha⟩ := hp
    intro found
    obtain ⟨l, hr⟩ := ih (a :: found)
    exact ⟨l, .repeated_more (.unseen (isEmpty_of_length_lt hl) (ha.bind .pure)) hl hr⟩

/-- Elements each of which a comma ends. -/
theorem Listed.of_flatMap {tokens : ξ → List Token} {xs : List ξ}
    (h : ∀ x ∈ xs, tokens x ≠ [] ∧ ∀ rest, Accepts p (tokens x ++ .mark ',' .alone :: rest)
      (.mark ',' .alone :: rest)) :
    Listed p (xs.flatMap fun x => tokens x ++ [.mark ',' .alone]) := by
  induction xs with
  | nil => exact .nil
  | cons x xs ih =>
    obtain ⟨⟨hne, hx⟩, hxs⟩ := List.forall_mem_cons.mp h
    rw [List.flatMap_cons, List.append_assoc, List.singleton_append]
    refine .cons (hx _) ?_ (ih hxs)
    have := List.length_pos_iff.mpr hne
    simp only [List.length_append, List.length_cons]
    omega

/-- Elements in front of others. An element may be read only in front of tokens of some kind, which
begin with it again. -/
theorem Sequenced.of_flatMap {I : List Token → Prop} {tokens : ξ → List Token} {xs : List ξ}
    (h : ∀ x ∈ xs, ∀ rest, I rest →
      I (tokens x ++ rest) ∧ tokens x ≠ [] ∧ Accepts p (tokens x ++ rest) rest)
    (hi : I ts) (ht : Sequenced p ts) :
    I (xs.flatMap tokens ++ ts) ∧ Sequenced p (xs.flatMap tokens ++ ts) := by
  induction xs with
  | nil => exact ⟨hi, ht⟩
  | cons x xs ih =>
    obtain ⟨hx, hxs⟩ := List.forall_mem_cons.mp h
    obtain ⟨hrest, hs⟩ := ih hxs
    obtain ⟨hfirst, hne, ha⟩ := hx _ hrest
    rw [List.flatMap_cons, List.append_assoc]
    exact ⟨hfirst, .cons ha (length_lt_append hne) hs⟩

end

end Parse

end Switchboard.Source
