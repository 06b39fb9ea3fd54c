import Switchboard.Source.Parse

/-! What rules write. A rule puts tokens after what was read before it and leaves that as it was, so
what is known of the tokens of its parts is known of its own. -/

namespace Switchboard.Source.Parse

variable {α β σ : Type}

/-- A rule that goes on only if a test holds of what is still to be read. -/
theorem require_sees (test : List Token → Bool) (p : Unit → Parse α) (c : Cursor) :
    (sees test >>= fun b => require b >>= p) c = if test c.ahead then p () c else none := by
  change (require (test c.ahead) >>= p) c = _
  cases test c.ahead <;> rfl

/-- That a rule, if it does not fail, writes tokens of which something holds, given its value. -/
def Writes (p : Parse α) (post : α → List Token → Prop) : Prop :=
  ∀ c a d, p c = some (a, d) → ∃ ts, d.behind = ts.reverse ++ c.behind ∧ post a ts

/-- A property of sequences that sequences in a row have together. -/
class Joins (P : List Token → Prop) : Prop where
  nil : P []
  append : ∀ s t, P s → P t → P (s ++ t)

/-- A property that sequences of names have, whatever the names are. -/
class JoinsWords (P : List Token → Prop) : Prop extends Joins P where
  word : ∀ w, P [.word w]

/-- A property that sequences of names and groups have, whatever is in the groups. -/
class JoinsGroups (P : List Token → Prop) : Prop extends JoinsWords P where
  group : ∀ d body, P [.group d body]

/-- That what a rule writes has a property. -/
abbrev Keeps (P : List Token → Prop) (p : Parse α) : Prop := Writes p fun _ => P

namespace Writes

theorem mono {p : Parse α} {post post' : α → List Token → Prop} (h : Writes p post)
    (hpost : ∀ a ts, post a ts → post' a ts) : Writes p post' := by
  intro c a d hp
  obtain ⟨ts, hb, hts⟩ := h c a d hp
  exact ⟨ts, hb, hpost a ts hts⟩

theorem pure {a : α} {post : α → List Token → Prop} (h : post a []) :
    Writes (Pure.pure a : Parse α) post := by
  intro c b d hp
  cases hp
  exact ⟨[], rfl, h⟩

theorem bind {p : Parse α} {f : α → Parse β} {mid : α → List Token → Prop}
    {post : β → List Token → Prop} (hp : Writes p mid)
    (hf : ∀ a s, mid a s → Writes (f a) fun b t => post b (s ++ t)) : Writes (p >>= f) post := by
  intro c b d h
  obtain ⟨⟨a, e⟩, ha, hb⟩ := Option.bind_eq_some_iff.mp h
  obtain ⟨s, hs, hmid⟩ := hp c a e ha
  obtain ⟨t, ht, hpost⟩ := hf a s hmid e b d hb
  exact ⟨s ++ t, by rw [ht, hs, List.reverse_append, List.append_assoc], hpost⟩

theorem ite {b : Prop} [Decidable b] {p q : Parse α} {post : α → List Token → Prop}
    (hp : b → Writes p post) (hq : ¬ b → Writes q post) : Writes (if b then p else q) post := by
  split
  · exact hp ‹_›
  · exact hq ‹_›

theorem failure {post : α → List Token → Prop} : Writes (failure : Parse α) post := by
  intro c a d h
  cases h

theorem sees {test : List Token → Bool} : Writes (Parse.sees test) fun _ ts => ts = [] := by
  intro c a d h
  cases h
  exact ⟨[], rfl, rfl⟩

private theorem require {b : Bool} : Writes (Parse.require b) fun _ ts => ts = [] ∧ b = true := by
  cases b with
  | true => exact pure ⟨rfl, rfl⟩
  | false => exact failure

private theorem one : Writes Parse.one fun t ts => ts = [t] := by
  intro c a d h
  unfold Parse.one at h
  split at h
  · cases h
    exact ⟨[a], rfl, rfl⟩
  · cases h

theorem write (ts : List Token) : Writes (Parse.write ts) fun _ us => us = ts := by
  intro c a d h
  cases h
  exact ⟨ts, rfl, rfl⟩

theorem mark (text : String) :
    Writes (Parse.mark text) fun _ ts => ts = Token.marks text.toList := by
  intro c a d h
  unfold Parse.mark at h
  split at h
  · cases h
    exact ⟨_, rfl, rfl⟩
  · cases h

theorem mark? (text : String) : Writes (Parse.mark? text) fun b ts =>
    ts = if b then Token.marks text.toList else [] := by
  refine bind sees fun _ s hs => ite (fun _ => bind (mark text) fun _ t ht => ?_) fun _ => ?_
  · exact pure (by simp [hs, ht])
  · exact pure (by simp [hs])

theorem captured {p : Parse α} {post : α → List Token → Prop} (h : Writes p post) :
    Writes (Parse.captured p) fun found ts => ts = [] ∧ post found.1 found.2 := by
  intro c found d hc
  obtain ⟨⟨a, e⟩, hp, rfl, rfl⟩ : ∃ r, p ⟨c.ahead, []⟩ = some r ∧
      found = (r.1, r.2.behind.reverse) ∧ d = ⟨r.2.ahead, c.behind⟩ := by
    obtain ⟨r, hr, he⟩ := Option.map_eq_some_iff.mp hc
    cases he
    exact ⟨r, hr, rfl, rfl⟩
  obtain ⟨ts, hb, hts⟩ := h _ a e hp
  refine ⟨[], rfl, rfl, ?_⟩
  simpa [hb] using hts

section

variable {P : List Token → Prop} [Joins P] {I : σ → Prop} {step : σ → Parse (σ × Bool)}

private theorem steps (h : ∀ s, I s → Writes (step s) fun r ts => I r.1 ∧ P ts) (n : Nat) {s : σ}
    (hs : I s) : Writes (Parse.steps step n s) fun s ts => I s ∧ P ts := by
  induction n generalizing s with
  | zero => exact failure
  | succ n ih =>
    refine bind (h s hs) fun r ts hr => ite (fun _ => ?_) fun _ => ?_
    · exact (ih hr.1).mono fun s us hu => ⟨hu.1, Joins.append ts us hr.2 hu.2⟩
    · exact pure ⟨hr.1, by simpa using hr.2⟩

/-- Steps taken in a row keep what each of them keeps of the state that it passes on. -/
theorem repeated (h : ∀ s, I s → Writes (step s) fun r ts => I r.1 ∧ P ts) {s : σ} (hs : I s) :
    Writes (Parse.repeated step s) fun s ts => I s ∧ P ts := by
  have ha : Writes Parse.ahead fun _ ts => ts = [] := by
    intro c a d hc
    cases hc
    exact ⟨[], rfl, rfl⟩
  refine bind ha fun ahead ts ht => ?_
  subst ht
  exact steps h _ hs

end

end Writes

namespace Keeps

variable {P : List Token → Prop} {p : Parse α}

theorem ite {b : Prop} [Decidable b] {q : Parse α} (hp : Keeps P p) (hq : Keeps P q) :
    Keeps P (if b then p else q) :=
  Writes.ite (fun _ => hp) fun _ => hq

theorem mark {text : String} (h : P (Token.marks text.toList)) : Keeps P (Parse.mark text) :=
  (Writes.mark text).mono fun _ _ ht => ht ▸ h

section joins

variable [Joins P]

theorem pure {a : α} : Keeps P (Pure.pure a : Parse α) :=
  Writes.pure Joins.nil

theorem bind {f : α → Parse β} (hp : Keeps P p) (hf : ∀ a, Keeps P (f a)) : Keeps P (p >>= f) :=
  Writes.bind hp fun a s hs => (hf a).mono fun _ t ht => Joins.append s t hs ht

theorem sees {test : List Token → Bool} : Keeps P (Parse.sees test) :=
  Writes.sees.mono fun _ _ h => h ▸ Joins.nil

theorem require {b : Bool} : Keeps P (Parse.require b) :=
  Writes.require.mono fun _ _ h => h.1 ▸ Joins.nil

/-- What is captured is not put after what was read before, so it may be anything. -/
theorem captured : Keeps P (Parse.captured p) := by
  intro c found d h
  obtain ⟨r, _, he⟩ := Option.map_eq_some_iff.mp h
  cases he
  exact ⟨[], rfl, Joins.nil⟩

theorem repeated {step : σ → Parse (σ × Bool)} {s : σ} (h : ∀ s, Keeps P (step s)) :
    Keeps P (Parse.repeated step s) :=
  (Writes.repeated (I := fun _ => True) (fun s _ => (h s).mono fun _ _ ht => ⟨trivial, ht⟩)
    trivial).mono fun _ _ ht => ht.2

theorem mark? {text : String} (h : P (Token.marks text.toList)) : Keeps P (Parse.mark? text) :=
  bind sees fun _ => ite (bind (mark h) fun _ => pure) pure

theorem separated {sep : String} {stop : List Token → Bool} (hs : P (Token.marks sep.toList))
    (h : Keeps P p) : Keeps P (Parse.separated sep stop p) :=
  bind (repeated fun _ => bind sees fun _ => ite pure <| bind h fun _ => bind sees fun _ =>
    ite pure <| bind (mark hs) fun _ => pure) fun _ => pure

end joins

section words

variable [JoinsWords P]

theorem anyWord : Keeps P Parse.anyWord := by
  refine Writes.bind Writes.one fun t s hs => ?_
  subst hs
  cases t with
  | word w => exact Writes.pure (JoinsWords.word w)
  | _ => exact Writes.failure

theorem ident : Keeps P Parse.ident :=
  bind anyWord fun _ => bind require fun _ => pure

theorem key {text : String} : Keeps P (Parse.key text) :=
  bind anyWord fun _ => require

theorem key? {text : String} : Keeps P (Parse.key? text) :=
  bind sees fun _ => ite (bind key fun _ => pure) pure

end words

section groups

variable [JoinsGroups P]

theorem group {d : Delimiter} : Keeps P (Parse.group d p) := by
  intro c a e h
  unfold Parse.group at h
  split at h
  · split at h
    · obtain ⟨⟨b, printed⟩, _, he⟩ := Option.map_eq_some_iff.mp h
      cases he
      exact ⟨[_], rfl, JoinsGroups.group _ _⟩
    · cases h
  · cases h

theorem anyGroup : Keeps P Parse.anyGroup := by
  refine Writes.bind Writes.one fun t s hs => ?_
  subst hs
  cases t with
  | group d body => exact Writes.pure (JoinsGroups.group d body)
  | _ => exact Writes.failure

end groups

end Keeps

end Switchboard.Source.Parse
