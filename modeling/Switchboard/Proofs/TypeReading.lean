import Switchboard.Proofs.NamePaths

/-! Types that are paths, alone, behind a reference and as arguments in angle brackets. -/

namespace Switchboard.Source

open Parse

/-- Tokens that a path begins. -/
inductive StartsPath : List Token → Prop
  | colons (ts : List Token) : StartsPath (.mark ':' .joint :: .mark ':' .alone :: ts)
  | word {w : Word} (ts : List Token) : w.isSegment = true → w.is "try" = false →
      StartsPath (.word w :: ts)

namespace StartsPath

variable {ts : List Token}

theorem key (h : StartsPath ts) {k : String} (hk : k ∈ Word.keywords)
    (hs : k ∉ ["super", "self", "crate", "Self"]) : Ahead.key k ts = false := by
  cases h with
  | colons => rfl
  | word ts hw ht =>
    change Word.is _ k = false
    by_cases he : k = "try"
    · exact he ▸ ht
    · refine Word.is_eq_false_of_isSegment hw hk ?_
      simp only [Word.segmentKeys, List.mem_cons] at hs ⊢
      tauto

theorem keys (h : StartsPath ts) {ks : List String}
    (hk : ∀ k ∈ ks, k ∈ Word.keywords ∧ k ∉ ["super", "self", "crate", "Self"]) :
    (ks.any fun k => Ahead.key k ts) = false :=
  List.any_eq_false.mpr fun k hmem => by simp [h.key (hk k hmem).1 (hk k hmem).2]

theorem literal (h : StartsPath ts) : Ahead.literal ts = false := by
  cases h with
  | colons => rfl
  | word ts hw ht =>
    have h := word ts hw ht
    rw [Ahead.literal, Bool.or_eq_false_iff]
    exact ⟨h.key (k := "true") (by decide) (by decide),
      h.key (k := "false") (by decide) (by decide)⟩

theorem begins (h : StartsPath ts) : Ahead.ident ts = true ∨ Ahead.mark "::" ts = true ∨
    Ahead.key "super" ts = true ∨ Ahead.key "self" ts = true ∨ Ahead.key "crate" ts = true ∨
      Ahead.key "Self" ts = true := by
  cases h with
  | colons => exact .inr (.inl rfl)
  | @word w ts hw ht =>
    simp only [Word.isSegment, Word.segmentKeys, List.any_cons, List.any_nil, ht, Bool.or_eq_true,
      Bool.false_eq_true, false_or, or_false] at hw
    exact hw.imp id .inr

theorem lifetime (h : StartsPath ts) : Ahead.lifetime ts = false := by cases h <;> rfl

theorem group (h : StartsPath ts) (d : Delimiter) : Ahead.group d ts = false := by cases h <;> rfl

/-- No operator begins a path that does not begin with a colon. -/
theorem mark (h : StartsPath ts) {text : String} (ht : text.toList.head? ≠ some ':') :
    Ahead.mark text ts = false := by
  unfold Ahead.mark
  generalize text.toList = cs at ht
  cases h with
  | word => rcases cs with _ | ⟨c, _ | ⟨d, cs⟩⟩ <;> rfl
  | colons ts =>
    rcases cs with _ | ⟨c, cs⟩
    · rfl
    · have hc : (c == ':') = false := by simpa using ht
      rcases cs with _ | ⟨d, cs⟩ <;> simp [Ahead.marksAre, hc]

theorem tokens (p : NamePath) (rest : List Token) : StartsPath (p.tokens ++ rest) := by
  obtain ⟨rooted, w, ws, hw, _, hb⟩ := p
  cases rooted with
  | true => exact colons _
  | false => exact word _ (hw w List.mem_cons_self) (hb.resolve_left Bool.false_ne_true)

end StartsPath

namespace Types

variable {g : Grammar} {n : Nat} {ts rest : List Token} {form : PathForm}

/-- Whether tokens do not go on with a path in place of a type. -/
def endsType (rest : List Token) : Bool :=
  endsPath rest && !Ahead.group .paren rest && !callsMacro rest && !Ahead.mark "+" rest

/-- What a path in place of a type looks like. -/
def formOf (form : PathForm) : TypeForm :=
  if form.count == 1 && !form.rooted && !form.parens then .name else .path

/-- A path is read as a type up to what does not go on with it. -/
theorem reads_typeRule (hs : StartsPath ts) (h : Reads (Path.unqualified g false) ts form rest)
    (hq : form.qualified = false) (he : endsType rest = true) (plus : Bool) :
    Reads (typeRule g plus) ts (formOf form) rest := by
  simp only [endsType, endsPath, Bool.and_eq_true, Bool.not_eq_true'] at he
  obtain ⟨⟨⟨⟨hc, ha⟩, hp⟩, hm⟩, hplus⟩ := he
  have hopens : Path.opensParen rest = false := by simp [Path.opensParen, hp, hc]
  have hpath : Reads (pathType g) ts form rest := by
    refine .bind (.bind (.mark?_of_false (hs.mark (by decide))) h) (.repeated_stop ?_)
    refine .unseen hopens ?_
    rw [Bool.and_false]
    exact .pure
  refine .bind (.unseen (hs.key (by decide) (by decide)) .pure) ?_
  refine .unseen (hs.group .paren) (.unseen (hs.keys (by decide)) ?_)
  refine .seen ?_ (.bind hpath ?_)
  · rcases hs.begins with h | h | h | h | h | h <;> simp [h]
  rw [hq]
  refine .unseen hm ?_
  rw [Bool.and_false]
  refine .unseen hplus ?_
  simp only [Bool.and_false, Bool.false_eq_true, if_false, formOf]
  split
  · exact .pure
  · exact .pure

/-- A path without arguments is a type. -/
theorem reads_namePath (p : NamePath) (he : endsType rest = true) (plus : Bool) :
    Accepts (Grammar.upTo (n + 1) (.type plus)) (p.tokens ++ rest) rest := by
  have hp : endsPath rest = true := by
    simp only [endsType, Bool.and_eq_true] at he ⊢
    exact he.1.1.1
  exact ⟨_, reads_typeRule (.tokens p rest) (Path.reads_namePath p hp) rfl he plus⟩

/-- A reference to what is a path. -/
theorem reads_reference (p : NamePath) (he : endsType rest = true) (plus : Bool) :
    Accepts (Grammar.upTo (n + 2) (.type plus)) (.mark '&' .alone :: (p.tokens ++ rest)) rest := by
  have hs := StartsPath.tokens p rest
  obtain ⟨form, hform⟩ := reads_namePath (n := n) p he false
  refine ⟨.other, .bind (.unseen rfl .pure) ?_⟩
  refine .unseen (by rfl) (.unseen (by rfl) (.unseen (by rfl) ?_))
  refine .bind (.key?_of_false rfl) (.unseen (by rfl) (.bind (.mark?_of_false rfl) ?_))
  refine .bind (.mark?_of_true rfl) ?_
  refine .bind (.unseen hs.lifetime .pure) ?_
  exact .bind (.key?_of_false (hs.key (by decide) (by decide))) (.bind hform .pure)

end Types

namespace Path

open Switchboard.Source.Types

variable {n : Nat} {rest : List Token}

/-- A path without arguments is a generic argument. -/
theorem reads_argument (p : NamePath) :
    Reads (argument (.upTo (n + 1))) (p.tokens ++ .mark '>' .alone :: rest) false
      (.mark '>' .alone :: rest) := by
  have hs := StartsPath.tokens p (.mark '>' .alone :: rest)
  obtain ⟨form, hform⟩ : Accepts (Grammar.upTo n.succ (.type true)) _ (.mark '>' .alone :: rest) :=
    Types.reads_namePath p rfl true
  refine .unseen (by rw [hs.lifetime, Bool.false_and]) ?_
  refine .unseen (by rw [beginsConstant, hs.literal, hs.group]; rfl) (.bind hform ?_)
  split
  · exact .bind (.mark?_of_false rfl) (.bind (.mark?_of_false rfl) .pure)
  · exact .pure

/-- A path without arguments in angle brackets. -/
theorem reads_angleArguments (p : NamePath) (turbofish : Bool) :
    Reads (angleArguments (.upTo (n + 1)))
      ((if turbofish then [.mark ':' .joint, .mark ':' .alone] else []) ++
        .mark '<' .alone :: (p.tokens ++ .mark '>' .alone :: rest)) () rest := by
  have hs := StartsPath.tokens p (.mark '>' .alone :: rest)
  have hargument : Reads (argument (.upTo (n + 1))) (p.tokens ++ .mark '>' .alone :: rest) false
      (.mark '>' .alone :: rest) := reads_argument p
  obtain ⟨printed, hprinted⟩ := hargument.captured
  have hcolons : Reads (mark? "::")
      ((if turbofish then [.mark ':' .joint, .mark ':' .alone] else []) ++
        .mark '<' .alone :: (p.tokens ++ .mark '>' .alone :: rest)) turbofish
      (.mark '<' .alone :: (p.tokens ++ .mark '>' .alone :: rest)) := by
    cases turbofish with
    | true => exact .mark?_of_true rfl
    | false => exact .mark?_of_false rfl
  have hend : Reads (mark ">") (.mark '>' .alone :: rest) () rest := .mark rfl
  refine .bind hcolons (.bind (.mark rfl) (.bind (a := [⟨false, printed, false⟩])
    (.repeated_stop ?_) (.bind (.write _ _) hend)))
  exact .unseen (hs.mark (by decide)) (.bind hprinted (.seen rfl .pure))

/-- A name with a path in angle brackets after it. In an expression two colons stand between. -/
theorem reads_segment_arguments {w : Word} (hw : w.isKeyword = false) (p : NamePath)
    (turbofish : Bool) :
    Reads (segment (.upTo (n + 1)) turbofish)
      (.word w :: ((if turbofish then [.mark ':' .joint, .mark ':' .alone] else []) ++
        .mark '<' .alone :: (p.tokens ++ .mark '>' .alone :: rest))) false rest := by
  refine .unseen (Ahead.keys_eq_false hw (by decide) _) ?_
  refine .bind (.key?_of_false (Ahead.key_eq_false hw (by decide) _)) (.bind (.ident hw _) ?_)
  exact .seen (by cases turbofish <;> rfl) (.bind (reads_angleArguments p turbofish) .pure)

/-- A path without arguments that goes on with a name which takes another one as its argument. -/
theorem reads_pathArguments (q : NamePath) {w : Word} (hw : w.isKeyword = false) (p : NamePath)
    (turbofish : Bool) (hr : Ahead.mark "::" rest = false) :
    Reads (unqualified (.upTo (n + 1)) turbofish) (q.tokens ++
      .mark ':' .joint :: .mark ':' .alone :: .word w ::
        ((if turbofish then [.mark ':' .joint, .mark ':' .alone] else []) ++
          .mark '<' .alone :: (p.tokens ++ .mark '>' .alone :: rest)))
      ⟨false, q.rooted, q.tail.length + 2, false, false, false⟩ rest := by
  refine reads_names q rfl (reads_further_more rfl (reads_segment_arguments hw p turbofish) ?_
    (reads_further_stop _ hr))
  simp only [List.length_append, List.length_cons]
  omega

end Path

end Switchboard.Source
