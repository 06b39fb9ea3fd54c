import Switchboard.Proofs.Angles
import Switchboard.Proofs.Identifiers
import Switchboard.Proofs.Legible
import Switchboard.Proofs.Recognition

/-! Paths that take no arguments: names joined by two colons. One is read in front of whatever does
not go on with a path, in a type as in an expression, and a text of names and colons that is a path
is one of them. -/

namespace Switchboard.Source

open Parse

namespace Lexer

variable {cs rest : List Char} {w : Word}

private theorem exists_of_name? {found : List Char} (h : name? cs = some (found, rest)) :
    ∃ c more, found = c :: more ∧ Text.Identifier.isStart c = true ∧
      ∀ d ∈ more, Text.Identifier.isContinue d = true := by
  unfold name? at h
  split at h
  · cases h
  · split at h
    · cases h
      exact ⟨_, _, rfl, ‹_›, fun d hd => List.all_eq_true.mp List.all_takeWhile d hd⟩
    · cases h

/-- A name that is read would be read again where it is written. -/
theorem isLegible_of_word? (h : word? cs = some (w, rest)) : w.isLegible = true := by
  unfold word? at h
  split at h
  · split at h
    · rename_i found later hn
      obtain ⟨c, more, rfl, hc, hmore⟩ := exists_of_name? hn
      dsimp only at h
      split at h
      · cases h
      · rename_i hr
        cases h
        simpa [Word.isLegible, hc] using ⟨hmore, by simpa using hr⟩
    · cases h
  · obtain ⟨⟨found, later⟩, hn, he⟩ := Option.map_eq_some_iff.mp h
    obtain ⟨c, more, rfl, hc, hmore⟩ := exists_of_name? hn
    cases he
    simpa [Word.isLegible, Word.plain, hc] using hmore

/-- What is read as one token is no group. -/
theorem leaf?_ne_group {d : Delimiter} {body : List Token} :
    leaf? cs ≠ some (.group d body, rest) := by
  intro h
  unfold leaf? at h
  split at h
  · cases h
  · rw [Option.orElse_eq_orElse, Option.orElse_eq_or, Option.or_eq_some_iff] at h
    rcases h with h | ⟨-, h⟩
    · obtain ⟨_, _, he⟩ := markToken?_mark h
      cases he
    · split at h
      · cases h
      · obtain ⟨_, _, he⟩ := Option.map_eq_some_iff.mp h
        cases he

end Lexer

namespace Token

mutual
/-- The names in a token tree at all depths. -/
def names : Token → List Word
  | .word w => [w]
  | .group _ body => namesAll body
  | .mark .. | .literal _ => []

/-- The names in a sequence of token trees at all depths. -/
def namesAll : List Token → List Word
  | [] => []
  | t :: ts => t.names ++ namesAll ts
end

theorem mem_namesAll {w : Word} {ts : List Token} :
    w ∈ namesAll ts ↔ ∃ t ∈ ts, w ∈ t.names := by
  induction ts with
  | nil => simp [namesAll]
  | cons t ts ih => simp [namesAll, ih]

private theorem names_docTokens {inner : Bool} {text : List Char} {w : Word}
    (h : w ∈ namesAll (Lexer.docTokens inner text)) : w = .plain "doc" := by
  cases inner <;> simpa [Lexer.docTokens, namesAll, names, Token.string] using h

end Token

open Token (namesAll mem_namesAll)

namespace Lexer

private theorem legible_of_scanFrom {n : Nat} {outer : List (Delimiter × List Token)}
    {done ts : List Token} {cs : List Char}
    (ho : ∀ e ∈ outer, ∀ w ∈ namesAll e.2, w.isLegible = true)
    (hd : ∀ w ∈ namesAll done, w.isLegible = true) (h : scanFrom n outer done cs = some ts) :
    ∀ w ∈ namesAll ts, w.isLegible = true := by
  have hreverse {done : List Token} (hd : ∀ w ∈ namesAll done, w.isLegible = true) :
      ∀ w ∈ namesAll done.reverse, w.isLegible = true :=
    fun w hw => hd w (by simpa [mem_namesAll] using hw)
  induction n generalizing outer done cs with
  | zero => cases h
  | succ n ih =>
    simp only [scanFrom] at h
    split at h
    · refine ih ho (fun w hw => ?_) h
      obtain ⟨t, ht, hw⟩ := mem_namesAll.mp hw
      rcases List.mem_append.mp ht with hm | hm
      · rw [Token.names_docTokens (mem_namesAll.mpr ⟨t, List.mem_reverse.mp hm, hw⟩)]
        decide
      · exact hd w (mem_namesAll.mpr ⟨t, hm, hw⟩)
    · split at h
      · split at h
        · cases h
          exact hreverse hd
        · cases h
      · split at h
        · exact ih (List.forall_mem_cons.mpr ⟨hd, ho⟩) (by simp [namesAll]) h
        · split at h
          · obtain ⟨hbefore, ho⟩ := List.forall_mem_cons.mp ho
            split at h
            · refine ih ho (fun w hw => ?_) h
              exact (List.mem_append.mp hw).elim (hreverse hd w) (hbefore w)
            · cases h
          · cases h
        · split at h
          · rename_i t rest hl
            refine ih ho (fun w hw => (List.mem_append.mp hw).elim (fun hw => ?_) (hd w)) h
            cases t with
            | word v =>
              rw [List.mem_singleton.mp hw]
              exact isLegible_of_word? (word?_of_leaf? hl)
            | group => exact absurd hl leaf?_ne_group
            | mark | literal => cases hw
          · cases h

/-- The names in what is scanned would be read again where they are written. -/
theorem isLegible_of_scanChars {cs : List Char} {ts : List Token} (h : scanChars cs = some ts)
    {w : Word} (hw : w ∈ namesAll ts) : w.isLegible = true :=
  legible_of_scanFrom (by simp) (by simp [namesAll]) h w hw

end Lexer

private theorem isLegible_of_mem_scan {text : String} {ts : List Token} (h : scan text = some ts)
    {w : Word} (hw : .word w ∈ ts) : w.isLegible = true :=
  Lexer.isLegible_of_scanChars h (mem_namesAll.mpr ⟨_, hw, List.mem_singleton_self w⟩)

/-- That a word may stand where a name is asked for, and is read again there. -/
structure Word.IsName (w : Word) : Prop where
  free : w.isKeyword = false
  legible : w.isLegible = true

theorem isName_of_identifier? {text : String} {w : Word} (h : identifier? text = some w) :
    w.IsName where
  free := (identifier?_eq_some_iff.mp h).2
  legible := isLegible_of_mem_scan (identifier?_eq_some_iff.mp h).1 List.mem_cons_self

/-- The name of a field is the identifier that some text is. -/
theorem exists_identifier?_of_field? {text : String} {w : Word} (h : field? text = some w) :
    ∃ name, identifier? name = some w := by
  unfold field? at h
  cases hi : identifier? text with
  | some v =>
    rw [hi] at h
    exact ⟨text, hi.trans h⟩
  | none =>
    rw [hi] at h
    exact ⟨_, h⟩

/-! Names as segments -/

/-- Keywords that may stand for a segment of a path. -/
def Word.segmentKeys : List String := ["super", "self", "crate", "try", "Self"]

/-- Whether a name may stand for a segment of a path. -/
def Word.isSegment (w : Word) : Bool :=
  !w.isKeyword || segmentKeys.any fun k => w.is k

theorem Word.isSegment_of_isKeyword {w : Word} (h : w.isKeyword = false) : w.isSegment = true := by
  simp [isSegment, h]

/-- A segment is no other keyword. -/
theorem Word.is_eq_false_of_isSegment {w : Word} (h : w.isSegment = true) {k : String}
    (hk : k ∈ keywords) (hs : k ∉ segmentKeys) : w.is k = false := by
  unfold isSegment at h
  rw [Bool.or_eq_true, Bool.not_eq_true'] at h
  rcases h with h | h
  · exact is_eq_false h hk
  · obtain ⟨s, hmem, hws⟩ := List.any_eq_true.mp h
    simp only [Word.is, Bool.and_eq_true, beq_iff_eq] at hws
    rw [Word.is, hws.2]
    have hne : s ≠ k := fun he => hs (he ▸ hmem)
    simp [hne]

/-- A path without arguments. -/
structure NamePath where
  /-- Whether two colons begin it. -/
  rooted : Bool
  head : Word
  tail : List Word
  segments : ∀ w ∈ head :: tail, w.isSegment = true
  legible : ∀ w ∈ head :: tail, w.isLegible = true
  /-- The keyword of a block that may fail does not begin it. -/
  begins : rooted = true ∨ head.is "try" = false

namespace NamePath

/-- Names with two colons in front of each. -/
def links (ws : List Word) : List Token :=
  ws.flatMap fun w => [.mark ':' .joint, .mark ':' .alone, .word w]

theorem links_cons (w : Word) (ws : List Word) :
    links (w :: ws) = .mark ':' .joint :: .mark ':' .alone :: .word w :: links ws := rfl

def tokens (p : NamePath) : List Token :=
  if p.rooted then links (p.head :: p.tail) else .word p.head :: links p.tail

/-- A path of one name. -/
def single (w : Word) (hw : w.IsName) : NamePath where
  rooted := false
  head := w
  tail := []
  segments := by simpa using Word.isSegment_of_isKeyword hw.free
  legible := by simpa using hw.legible
  begins := .inr (Word.is_eq_false hw.free (by decide))

/-- A path that two colons begin. -/
def global (w : Word) (ws : List Word) (hk : ∀ v ∈ w :: ws, v.isSegment = true)
    (hl : ∀ v ∈ w :: ws, v.isLegible = true) : NamePath where
  rooted := true
  head := w
  tail := ws
  segments := hk
  legible := hl
  begins := .inl rfl

/-- A path with further names. -/
def extend (p : NamePath) (ws : List Word) (hk : ∀ w ∈ ws, w.isSegment = true)
    (hl : ∀ w ∈ ws, w.isLegible = true) : NamePath where
  rooted := p.rooted
  head := p.head
  tail := p.tail ++ ws
  segments w hw := by
    rw [← List.cons_append] at hw
    exact (List.mem_append.mp hw).elim (p.segments w) (hk w)
  legible w hw := by
    rw [← List.cons_append] at hw
    exact (List.mem_append.mp hw).elim (p.legible w) (hl w)
  begins := p.begins

theorem tokens_extend (p : NamePath) (ws : List Word) (hk : ∀ w ∈ ws, w.isSegment = true)
    (hl : ∀ w ∈ ws, w.isLegible = true) : (p.extend ws hk hl).tokens = p.tokens ++ links ws := by
  obtain ⟨rooted, w, ws', _, _, _⟩ := p
  cases rooted <;> simp [tokens, extend, links]

private theorem legible_links {ws : List Word} (h : ∀ w ∈ ws, w.isLegible = true) :
    Legible (links ws) := by
  induction ws with
  | nil => exact .nil
  | cons w ws ih =>
    obtain ⟨hw, hws⟩ := List.forall_mem_cons.mp h
    exact .joint (by decide) (by decide) (.alone (by decide) (.word hw (ih hws)))

theorem legible_tokens (p : NamePath) : Legible p.tokens := by
  unfold tokens
  split
  · exact legible_links p.legible
  · obtain ⟨hh, ht⟩ := List.forall_mem_cons.mp p.legible
    exact .word hh (legible_links ht)

/-- What a path without arguments looks like. -/
def form (rooted : Bool) (count : Nat) : PathForm := ⟨false, rooted, count, true, true, false⟩

end NamePath

/-- Whether tokens do not go on with the segment of a path, that is with arguments. -/
def endsSegment (rest : List Token) : Bool :=
  !Ahead.mark "<" rest && !(Ahead.mark "::" rest && Ahead.mark "<" (rest.drop 2))

/-- Whether tokens do not go on with a path. -/
def endsPath (rest : List Token) : Bool :=
  !Ahead.mark "::" rest && !Ahead.mark "<" rest

private theorem endsSegment_of_endsPath {rest : List Token} (h : endsPath rest = true) :
    endsSegment rest = true := by
  simp only [endsPath, Bool.and_eq_true, Bool.not_eq_true'] at h
  simp [endsSegment, h]

namespace Path

open NamePath

variable {g : Grammar} {inExpr : Bool} {rest last : List Token}

/-- Whether arguments come next. -/
def opensAngle (inExpr : Bool) (ts : List Token) : Bool :=
  (!inExpr && Ahead.mark "<" ts && !Ahead.mark "<=" ts) ||
    (Ahead.mark "::" ts && Ahead.mark "<" (ts.drop 2))

/-- A segment is a name, with the arguments that come next unless it is a keyword that takes none. -/
theorem segment_cons (w : Word) (ts behind : List Token) :
    segment g inExpr ⟨.word w :: ts, behind⟩ =
      if !w.isSegment then none
      else if opensAngle inExpr ts && !(["super", "self", "crate", "try"].any fun k => w.is k) then
        (angleArguments g ⟨ts, .word w :: behind⟩).map fun r => (false, r.2)
      else some (true, ⟨ts, .word w :: behind⟩) := by
  have hends (c : Cursor) (hc : c = ⟨ts, .word w :: behind⟩) : (do
      if ← sees fun ts => (!inExpr && Ahead.mark "<" ts && !Ahead.mark "<=" ts) ||
          (Ahead.mark "::" ts && Ahead.mark "<" (ts.drop 2)) then
        angleArguments g
        return false
      else return true : Parse Bool) c = if opensAngle inExpr ts then
        (angleArguments g ⟨ts, .word w :: behind⟩).map fun r => (false, r.2)
      else some (true, ⟨ts, .word w :: behind⟩) := by
    subst hc
    rw [sees_bind]
    change (if opensAngle inExpr ts then _ else _ : Parse Bool) _ = _
    cases opensAngle inExpr ts with
    | false => rfl
    | true =>
      change (angleArguments g ⟨ts, .word w :: behind⟩).bind _ = _
      cases angleArguments g ⟨ts, .word w :: behind⟩ <;> rfl
  rw [segment, sees_bind]
  change (if (["super", "self", "crate", "try"].any fun k => w.is k) = true then _ else _ :
    Parse Bool) _ = _
  cases hm : ["super", "self", "crate", "try"].any fun k => w.is k with
  | true =>
    have hw : w.isSegment = true := by
      obtain ⟨k, hk, hwk⟩ := List.any_eq_true.mp hm
      rw [Word.isSegment, Bool.or_eq_true]
      exact .inr (List.any_eq_true.mpr ⟨k, List.mem_append_left ["Self"] hk, hwk⟩)
    simp only [if_true, hw, Bool.not_true, Bool.and_false, Bool.false_eq_true, if_false]
    rfl
  | false =>
    rw [if_neg Bool.false_ne_true, Bool.not_false, Bool.and_true]
    change (key? "Self" _).bind _ = _
    rw [key?_word]
    cases hs : w.is "Self" with
    | true =>
      have hw : w.isSegment = true := by simp [Word.isSegment, Word.segmentKeys, hs]
      rw [hw]
      exact hends _ rfl
    | false =>
      have hw : w.isSegment = !w.isKeyword := by
        simp only [List.any_cons, List.any_nil, Bool.or_eq_false_iff] at hm
        simp [Word.isSegment, Word.segmentKeys, hm, hs]
      change (ident ⟨.word w :: ts, behind⟩).bind _ = _
      rw [ident_word, hw]
      cases w.isKeyword with
      | true => rfl
      | false => exact hends _ rfl

/-- Only a name that may be a segment begins one. -/
theorem begins_of_segment {ts behind : List Token} {r : Bool × Cursor}
    (h : segment g inExpr ⟨ts, behind⟩ = some r) :
    ∃ w more, ts = .word w :: more ∧ w.isSegment = true := by
  rcases ts with _ | ⟨w | _ | _ | _, more⟩
  case cons.word =>
    rw [segment_cons] at h
    split at h
    · cases h
    · rename_i hw
      exact ⟨w, more, rfl, by simpa using hw⟩
  all_goals cases h

/-- A name is a whole segment if nothing after it opens arguments. -/
theorem segment_word (w : Word) (behind : List Token) (hr : endsSegment rest = true) :
    segment g inExpr ⟨.word w :: rest, behind⟩ =
      if w.isSegment then some (true, ⟨rest, .word w :: behind⟩) else none := by
  have hopens : opensAngle inExpr rest = false := by
    simp only [endsSegment, Bool.and_eq_true, Bool.not_eq_true'] at hr
    rw [opensAngle, hr.1, hr.2, Bool.and_false, Bool.false_and, Bool.or_false]
  rw [segment_cons, hopens]
  cases w.isSegment <;> rfl

theorem reads_segment {w : Word} (hw : w.isSegment = true) (hr : endsSegment rest = true) :
    Reads (segment g inExpr) (.word w :: rest) true rest := by
  intro behind
  rw [segment_word w behind hr, if_pos hw]
  rfl

theorem reads_further_stop (form : PathForm) (h : Ahead.mark "::" rest = false) :
    Reads (further g inExpr form) rest form rest :=
  .repeated_stop (.unseen (by rw [goesOn, h, Bool.false_and]) .pure)

/-- One more segment of a path. -/
theorem reads_further_more {form form' : PathForm} {bare : Bool} {ts mid : List Token}
    (hg : goesOn ts = true) (hs : Reads (segment g inExpr) (ts.drop 2) bare mid)
    (hl : mid.length < ts.length) (hf : Reads (further g inExpr { form with
      count := form.count + 1, lastBare := bare, bare := form.bare && bare }) mid form' rest) :
    Reads (further g inExpr form) ts form' rest := by
  have hm : Ahead.mark "::" ts = true := by
    rw [goesOn, Bool.and_eq_true] at hg
    exact hg.1
  exact .repeated_more (.seen hg (.bind (.mark hm) (.bind hs .pure))) hl hf

/-- The first name of several in a row is a whole segment. -/
theorem reads_first {w : Word} (hw : w.isSegment = true) (ws : List Word)
    (hr : endsSegment rest = true) :
    Reads (segment g inExpr) (.word w :: (links ws ++ rest)) true (links ws ++ rest) := by
  cases ws with
  | nil => exact reads_segment hw hr
  | cons => exact reads_segment hw rfl

private theorem reads_links {ws : List Word} (hw : ∀ w ∈ ws, w.isSegment = true)
    (hr : endsSegment rest = true) {rooted : Bool} {n : Nat} {form' : PathForm}
    (hf : Reads (further g inExpr (form rooted (n + ws.length))) rest form' last) :
    Reads (further g inExpr (form rooted n)) (links ws ++ rest) form' last := by
  induction ws generalizing n with
  | nil => exact hf
  | cons w ws ih =>
    obtain ⟨hw, hws⟩ := List.forall_mem_cons.mp hw
    rw [List.length_cons, Nat.add_comm ws.length, ← Nat.add_assoc] at hf
    refine reads_further_more rfl (reads_first hw ws hr) ?_ (ih hws hf)
    simp only [links_cons, List.cons_append, List.length_cons]
    omega

/-- The names of a path in front of the rest of it. -/
theorem reads_names (p : NamePath) (hr : endsSegment rest = true) {form' : PathForm}
    (hf : Reads (further g inExpr (form p.rooted (p.tail.length + 1))) rest form' last) :
    Reads (unqualified g inExpr) (p.tokens ++ rest) form' last := by
  obtain ⟨rooted, w, ws, hp, _⟩ := p
  obtain ⟨hw, hws⟩ := List.forall_mem_cons.mp hp
  rw [Nat.add_comm] at hf
  have hfirst : Reads (do
      let bare ← segment g inExpr
      further g inExpr ⟨false, rooted, 1, bare, bare, false⟩) (.word w :: (links ws ++ rest))
      form' last := (reads_first hw ws hr).bind (reads_links hws hr hf)
  cases rooted with
  | true => exact .bind (.mark?_of_true rfl) hfirst
  | false => exact .bind (.mark?_of_false rfl) hfirst

/-- A path without arguments is read up to what does not go on with it. -/
theorem reads_namePath (p : NamePath) (hr : endsPath rest = true) :
    Reads (unqualified g inExpr) (p.tokens ++ rest) (form p.rooted (p.tail.length + 1)) rest := by
  have hc : Ahead.mark "::" rest = false := by
    simp only [endsPath, Bool.and_eq_true, Bool.not_eq_true'] at hr
    exact hr.1
  exact reads_names p (endsSegment_of_endsPath hr) (reads_further_stop _ hc)

/-! Texts of names and colons -/

open Outline (isPlain)

private theorem mark_angle_of_isPlain {ts : List Token} (h : ts.all isPlain = true) :
    Ahead.mark "<" ts = false := by
  cases ts with
  | nil => rfl
  | cons t ts =>
    rw [List.all_cons, Bool.and_eq_true] at h
    have ht := h.1
    unfold isPlain at ht
    split at ht
    · rfl
    · rfl
    · cases ht

theorem exists_colons {ts : List Token} (h : Ahead.mark "::" ts = true) :
    ∃ s more, ts = .mark ':' .joint :: .mark ':' s :: more := by
  rcases ts with _ | ⟨_ | ⟨c, _ | _⟩ | _ | _, _ | ⟨_ | ⟨d, s⟩ | _ | _, more⟩⟩
  all_goals simp [Ahead.mark, Ahead.marksAre] at h
  obtain ⟨⟨rfl, _⟩, rfl, _⟩ := h
  exact ⟨s, more, rfl⟩

/-- A segment among names and colons is one of the names. -/
theorem exists_of_segment {ts behind : List Token} {bare : Bool} {c : Cursor}
    (hp : ts.all isPlain = true) (h : segment g inExpr ⟨ts, behind⟩ = some (bare, c)) :
    ∃ w more, ts = .word w :: more ∧ w.isSegment = true ∧ bare = true ∧
      c = ⟨more, .word w :: behind⟩ := by
  obtain ⟨w, more, rfl, hw⟩ := begins_of_segment h
  rw [List.all_cons, Bool.and_eq_true] at hp
  have hdrop : (more.drop 2).all isPlain = true :=
    List.all_eq_true.mpr fun t ht => List.all_eq_true.mp hp.2 t (List.mem_of_mem_drop ht)
  have hends : endsSegment more = true := by
    simp [endsSegment, mark_angle_of_isPlain hp.2, mark_angle_of_isPlain hdrop]
  rw [segment_word w behind hends, if_pos hw] at h
  cases h
  exact ⟨w, more, rfl, hw, rfl, rfl⟩

/-- Among names and colons a path goes on with names that have two colons in front. -/
theorem exists_of_further {ts behind : List Token} {form form' : PathForm} {c : Cursor}
    (hp : ts.all isPlain = true) (h : further g inExpr form ⟨ts, behind⟩ = some (form', c)) :
    ∃ ws, (∀ w ∈ ws, w.isSegment = true ∧ .word w ∈ ts) ∧
      c.behind = (links ws).reverse ++ behind := by
  have hr := runs_of_repeated h
  clear h
  generalize hc : (⟨ts, behind⟩ : Cursor) = c₀ at hr
  induction hr generalizing ts behind with
  | stop hs =>
    subst hc
    rw [sees_bind] at hs
    split at hs
    · obtain ⟨⟨_, _⟩, _, hs⟩ := Option.bind_eq_some_iff.mp hs
      obtain ⟨⟨_, _⟩, _, hs⟩ := Option.bind_eq_some_iff.mp hs
      cases hs
    · cases hs
      exact ⟨[], by simp, rfl⟩
  | more hs hr ih =>
    subst hc
    rw [sees_bind] at hs
    split at hs
    · rename_i hgo
      rw [goesOn, Bool.and_eq_true] at hgo
      obtain ⟨s, more, rfl⟩ := exists_colons hgo.1
      obtain ⟨⟨bare, d⟩, hseg, hs⟩ := Option.bind_eq_some_iff.mp hs
      simp only [List.all_cons, Bool.and_eq_true] at hp
      obtain ⟨w, later, rfl, hw, rfl, rfl⟩ := exists_of_segment hp.2.2 hseg
      cases hs
      simp only [List.all_cons, Bool.and_eq_true] at hp
      obtain ⟨ws, hws, hb⟩ := ih hp.2.2.2 rfl
      refine ⟨w :: ws, List.forall_mem_cons.mpr ⟨⟨hw, by simp⟩, fun v hv => ?_⟩, ?_⟩
      · exact ⟨(hws v hv).1, by simp [(hws v hv).2]⟩
      · rw [hb]
        simp [links, Token.marks]
    · cases hs

/-- What is printed of a path among names and colons is a path without arguments. -/
theorem exists_of_unqualified {ts : List Token} {form : PathForm} {c : Cursor}
    (hp : ts.all isPlain = true) (hl : ∀ w, .word w ∈ ts → w.isLegible = true)
    (ht : Ahead.key "try" ts = false) (h : unqualified g false ⟨ts, []⟩ = some (form, c)) :
    ∃ p : NamePath, c.behind.reverse = p.tokens := by
  obtain ⟨⟨rooted, d⟩, hm, h⟩ := Option.bind_eq_some_iff.mp h
  obtain ⟨⟨bare, e⟩, hseg, h⟩ := Option.bind_eq_some_iff.mp h
  rw [mark?, sees_bind] at hm
  split at hm
  · rename_i hc
    obtain ⟨s, more, rfl⟩ := exists_colons hc
    cases hm
    simp only [List.all_cons, Bool.and_eq_true] at hp
    obtain ⟨w, later, rfl, hw, rfl, rfl⟩ := exists_of_segment hp.2.2 hseg
    simp only [List.all_cons, Bool.and_eq_true] at hp
    obtain ⟨ws, hws, hb⟩ := exists_of_further hp.2.2.2 h
    refine ⟨⟨true, w, ws, ?_, ?_, .inl rfl⟩, ?_⟩
    · exact List.forall_mem_cons.mpr ⟨hw, fun v hv => (hws v hv).1⟩
    · exact List.forall_mem_cons.mpr ⟨hl w (by simp), fun v hv => hl v (by simp [(hws v hv).2])⟩
    · simp [hb, NamePath.tokens, links, Token.marks]
  · cases hm
    obtain ⟨w, later, rfl, hw, rfl, rfl⟩ := exists_of_segment hp hseg
    simp only [List.all_cons, Bool.and_eq_true] at hp
    obtain ⟨ws, hws, hb⟩ := exists_of_further hp.2 h
    refine ⟨⟨false, w, ws, ?_, ?_, .inr ht⟩, ?_⟩
    · exact List.forall_mem_cons.mpr ⟨hw, fun v hv => (hws v hv).1⟩
    · exact List.forall_mem_cons.mpr ⟨hl w (by simp), fun v hv => hl v (by simp [(hws v hv).2])⟩
    · simp [hb, NamePath.tokens]

end Path

/-- Whether a text is names joined by two colons, as far as its tokens go. The keyword of a block
that may fail does not begin it. -/
def isNamePath (text : String) : Bool :=
  (scan text).any fun ts => ts.all Outline.isPlain && !Ahead.key "try" ts

/-- A path that is written of names and colons takes no arguments. -/
theorem exists_namePath {text : String} {ts : List Token} (hn : isNamePath text = true)
    (h : path? text = some ts) : ∃ p : NamePath, ts = p.tokens := by
  obtain ⟨scanned, hs, h⟩ := Option.bind_eq_some_iff.mp h
  rw [isNamePath, hs, Option.any_some, Bool.and_eq_true, Bool.not_eq_true'] at hn
  obtain ⟨⟨form, _⟩, hr, he⟩ := Option.bind_eq_some_iff.mp h
  cases he
  unfold recognise whole inside at hr
  split at hr
  · rename_i hrun
    cases hr
    exact Path.exists_of_unqualified hn.1 (fun w => isLegible_of_mem_scan hs) hn.2 hrun
  · cases hr

end Switchboard.Source
