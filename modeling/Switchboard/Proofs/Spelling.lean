import Switchboard.Proofs.Ownership
import Switchboard.Proofs.SolidText
import Switchboard.Proofs.Validation

/-! How a type is spelled. Types are owned by the texts of their paths, and texts that differ only
in what stands between their tokens are different. A path that is written with nothing between its
tokens is told by them, so a type that is written like that everywhere has one owner. -/

namespace Switchboard

open Source (Token)

namespace Source.Token

mutual
/-- A token tree whose marks do not tell how far it is to the next token. -/
def unspaced : Token → Token
  | .mark c _ => .mark c .alone
  | .group d body => .group d (unspacedAll body)
  | t => t

/-- Token trees whose marks do not tell how far it is to the next token. -/
def unspacedAll : List Token → List Token
  | [] => []
  | t :: ts => t.unspaced :: unspacedAll ts
end

mutual
theorem solid_unspaced : (t : Token) → t.unspaced.solid = t.solid
  | .word _ => rfl
  | .mark _ _ => rfl
  | .literal _ => rfl
  | .group _ body => by simp [unspaced, solid, solidAll_unspacedAll body]

theorem solidAll_unspacedAll : (ts : List Token) → solidAll (unspacedAll ts) = solidAll ts
  | [] => rfl
  | t :: ts => by simp [unspacedAll, solidAll, solid_unspaced t, solidAll_unspacedAll ts]
end

/-- Tokens without two colons in front. -/
def unrooted : List Token → List Token
  | .mark ':' _ :: .mark ':' _ :: ts => ts
  | ts => ts

theorem unrooted_of_head? {ts : List Token} (h : (solidAll ts).head? ≠ some ':') :
    unrooted ts = ts := by
  unfold unrooted
  split
  · simp [solidAll, solid] at h
  · rfl

end Source.Token

namespace SchemaPath

/-- What a path says: its tokens, however far they are apart, without two colons in front. -/
def tokens? (p : SchemaPath) : Option (List Token) :=
  (Source.scan p.text).map fun ts => Token.unrooted (Token.unspacedAll ts)

/-- Whether a path is written with nothing in front of its first name and nothing between its
tokens: no gap, no slash that may begin a comment, no byte order mark and no colon in front. -/
def isPlain (p : SchemaPath) : Bool :=
  p.text.toList.all Source.Lexer.isSolid && p.text.toList.head? != some ':' &&
    p.text.toList.head? != some '\ufeff'

/-- A plain path is its tokens written one after another. -/
theorem solidAll_of_isPlain {p : SchemaPath} {ts : List Token} (hp : p.isPlain = true)
    (h : p.tokens? = some ts) : Token.solidAll ts = p.text.toList := by
  obtain ⟨us, hs, rfl⟩ := Option.map_eq_some_iff.mp h
  simp only [isPlain, Bool.and_eq_true, List.all_eq_true, bne_iff_ne] at hp
  obtain ⟨⟨hsolid, hcolon⟩, hmark⟩ := hp
  -- nothing of a plain path is passed over: neither a mark at its front nor two colons
  have hd : Source.Lexer.dropOrderMark p.text.toList = p.text.toList := by
    unfold Source.Lexer.dropOrderMark
    split
    · rename_i he
      simp [he] at hmark
    · rfl
  rw [Source.scan, hd] at hs
  have hu : Token.solidAll us = p.text.toList := Source.Lexer.solidAll_of_scanFrom hsolid hs
  rw [Token.unrooted_of_head? (by rwa [Token.solidAll_unspacedAll, hu]),
    Token.solidAll_unspacedAll, hu]

/-- Plain paths that say the same are the same. -/
theorem eq_of_isPlain {p q : SchemaPath} {ts : List Token} (hp : p.isPlain = true)
    (hq : q.isPlain = true) (hpt : p.tokens? = some ts) (hqt : q.tokens? = some ts) : p = q := by
  rw [← text_inj, ← String.toList_inj, ← solidAll_of_isPlain hp hpt, solidAll_of_isPlain hq hqt]

private theorem exists_tokens_of_fault {p : SchemaPath} (h : Naming.pathFault? p.text = none) :
    ∃ ts, p.tokens? = some ts := by
  obtain ⟨printed, hp⟩ := Naming.exists_path_of_fault h
  obtain ⟨ts, hs, _⟩ := Option.bind_eq_some_iff.mp hp
  exact ⟨_, congrArg _ hs⟩

end SchemaPath

private theorem Group.pathFault?_of_complaints {g : Group} (h : g.complaints = []) {p : SchemaPath}
    (hp : p ∈ g.claims) : Naming.pathFault? p.text = none := by
  unfold complaints at h
  split at h
  · cases h
  · have hc := (List.append_eq_nil_iff.mp h).2
    simpa using List.filterMap_eq_nil_iff.mp hc p hp

namespace Ownership

/-- A type has an owner just if a group claims it. -/
theorem exists_ownerOf_iff (groups : List Group) (p : SchemaPath) :
    (∃ i, (resolve groups).ownerOf p = some i) ↔ ∃ g ∈ groups, p ∈ g.claims := by
  rw [← Option.isSome_iff_exists, ownerOf, get?_owners_resolve, claimant?]
  simp [Group.claims_text_iff]

private theorem exists_tokens_of_ownerOf {m : Model} (hv : m.isValid = true) {p : SchemaPath}
    {i : Nat} (h : (resolve m.groups).ownerOf p = some i) : ∃ ts, p.tokens? = some ts := by
  obtain ⟨g, hg, hp⟩ := (exists_ownerOf_iff m.groups p).mp ⟨i, h⟩
  have hc := ((Model.isValid_iff m).mp hv).1 g hg
  exact SchemaPath.exists_tokens_of_fault (Group.pathFault?_of_complaints hc hp)

/-- Whether paths with an owner that are not the same do not say the same. -/
def Distinguishes (o : Ownership) : Prop :=
  ∀ p q i j, o.ownerOf p = some i → o.ownerOf q = some j → p ≠ q → p.tokens? ≠ q.tokens?

/-- Ownership keeps the types of a valid model apart just if no two claims are different spellings
of one type. Of two different paths with an owner that say the same one is not plain, so it does
whenever all claims are plain. -/
theorem distinguishes_iff {m : Model} (hv : m.isValid = true) :
    (∀ p i, (resolve m.groups).ownerOf p = some i → ∃ ts, p.tokens? = some ts) ∧
      ((resolve m.groups).Distinguishes ↔
        ∀ g ∈ m.groups, ∀ h ∈ m.groups, ∀ p ∈ g.claims, ∀ q ∈ h.claims,
          p.tokens? = q.tokens? → p = q) ∧
      ∀ p q i j, (resolve m.groups).ownerOf p = some i → (resolve m.groups).ownerOf q = some j →
        p ≠ q → p.tokens? = q.tokens? → p.isPlain = false ∨ q.isPlain = false := by
  refine ⟨fun p i => exists_tokens_of_ownerOf hv, ⟨?_, ?_⟩, ?_⟩
  · intro hd g hg h hh p hp q hq he
    obtain ⟨i, hi⟩ := (exists_ownerOf_iff m.groups p).mpr ⟨g, hg, hp⟩
    obtain ⟨j, hj⟩ := (exists_ownerOf_iff m.groups q).mpr ⟨h, hh, hq⟩
    by_contra hne
    exact hd p q i j hi hj hne he
  · intro hc p q i j hi hj hne he
    obtain ⟨g, hg, hp⟩ := (exists_ownerOf_iff m.groups p).mp ⟨i, hi⟩
    obtain ⟨h, hh, hq⟩ := (exists_ownerOf_iff m.groups q).mp ⟨j, hj⟩
    exact hne (hc g hg h hh p hp q hq he)
  · intro p q i j hi hj hne he
    obtain ⟨ts, ht⟩ := exists_tokens_of_ownerOf hv hi
    by_contra hn
    simp only [not_or, Bool.not_eq_false] at hn
    exact hne (SchemaPath.eq_of_isPlain hn.1 hn.2 ht (he ▸ ht))

/-- A model whose groups share a type that both write plainly. -/
def shared : Model where
  groups := [⟨"pets", none, [⟨"api::Pet"⟩, ⟨"api::Owner"⟩]⟩, ⟨"owners", none, [⟨"api::Owner"⟩]⟩]

theorem distinguishes_iff_shared : (resolve shared.groups).Distinguishes := by
  have hv : shared.isValid = true := by decide +kernel
  have hp : ∀ g ∈ shared.groups, ∀ p ∈ g.claims, p.isPlain = true := by decide +kernel
  obtain ⟨-, -, hplain⟩ := distinguishes_iff hv
  intro p q i j hi hj hne he
  obtain ⟨g, hg, hgp⟩ := (exists_ownerOf_iff _ p).mp ⟨i, hi⟩
  obtain ⟨h, hh, hhq⟩ := (exists_ownerOf_iff _ q).mp ⟨j, hj⟩
  rcases hplain p q i j hi hj hne he with hn | hn
  · rw [hp g hg p hgp] at hn
    cases hn
  · rw [hp h hh q hhq] at hn
    cases hn

/-- A model whose groups claim one type in two spellings. -/
def respelled : Model where
  groups := [⟨"a", none, [⟨"a::X"⟩]⟩, ⟨"b", none, [⟨"a :: X"⟩]⟩]

/-- A type with two owners. -/
theorem respelled_owned_twice :
    respelled.isValid = true ∧ ∃ p q : SchemaPath,
      (resolve respelled.groups).ownerOf p = some 0 ∧
      (resolve respelled.groups).ownerOf q = some 1 ∧ p ≠ q ∧ p.tokens? = q.tokens? :=
  ⟨by decide +kernel, ⟨"a::X"⟩, ⟨"a :: X"⟩, by decide +kernel, by decide +kernel, by decide +kernel,
    by decide +kernel⟩

end Ownership

end Switchboard
