import Switchboard.Proofs.LatestDefinitions
import Switchboard.Proofs.Nesting

/-! The names under which a source defines types. Each stands in the source, so it would be read
again where it is written, and each may stand for a segment of a path. -/

namespace Switchboard.Source

open Token (namesAll mem_namesAll)

namespace Parse

variable {α : Type} {p : Parse α} {c d : Cursor}

/-- What a rule leaves is the end of what it began with. -/
theorem isSuffix_of_below (hp : Below p p) {a : α} (h : p c = some (a, d)) :
    d.ahead <:+ c.ahead := by
  obtain ⟨front, _, hf, -⟩ := hp.run h
  exact ⟨front, hf.symm⟩

/-- Each of the elements up to the end is read from some place on. -/
theorem exists_of_untilEnd (hp : Below p p) {l : List α} (h : untilEnd p c = some (l, d)) {a : α}
    (ha : a ∈ l) : ∃ e f, p e = some (a, f) ∧ e.ahead <:+ c.ahead := by
  obtain ⟨⟨found, e⟩, hr, hl⟩ := Option.bind_eq_some_iff.mp h
  cases hl
  have hruns := runs_of_repeated hr
  suffices hall : ∀ {before found c e}, Runs _ before c found e → ∀ b ∈ found, b ∉ before →
      ∃ e f, p e = some (b, f) ∧ e.ahead <:+ c.ahead from
    hall hruns a (List.mem_reverse.mp ha) List.not_mem_nil
  intro before found c e hruns
  induction hruns with
  | stop hs =>
    rw [atEnd, sees_bind] at hs
    split at hs
    · cases hs
      exact fun b hb hn => absurd hb hn
    · obtain ⟨⟨_, _⟩, _, hs⟩ := Option.bind_eq_some_iff.mp hs
      cases hs
  | @more found found' _ c c' _ hs _ ih =>
    rw [atEnd, sees_bind] at hs
    split at hs
    · cases hs
    · obtain ⟨⟨first, e⟩, hf, hs⟩ := Option.bind_eq_some_iff.mp hs
      cases hs
      intro b hb hn
      by_cases hfirst : b = first
      · exact ⟨c, c', hfirst ▸ hf, List.suffix_refl _⟩
      · obtain ⟨e', f, hr, hsuffix⟩ := ih b hb (by simp [hfirst, hn])
        exact ⟨e', f, hr, hsuffix.trans (isSuffix_of_below hp hf)⟩

end Parse

open Parse

/-- That names stand among tokens and may be the segments of a path. -/
structure Stand (ts : List Token) (ws : List Word) : Prop where
  nonempty : ws ≠ []
  segments : ∀ w ∈ ws, w.isSegment = true
  within : ∀ w ∈ ws, w ∈ namesAll ts

namespace Stand

variable {ts us : List Token} {ws : List Word} {w : Word}

private theorem mono (h : Stand ts ws) (hs : ∀ w ∈ namesAll ts, w ∈ namesAll us) : Stand us ws :=
  ⟨h.nonempty, h.segments, fun w hw => hs w (h.within w hw)⟩

private theorem of_isSuffix (h : Stand ts ws) (hs : ts <:+ us) : Stand us ws := by
  refine h.mono fun w hw => ?_
  obtain ⟨t, ht, hw⟩ := mem_namesAll.mp hw
  exact mem_namesAll.mpr ⟨t, hs.mem ht, hw⟩

private theorem single (hs : w.isSegment = true) (hw : w ∈ namesAll ts) : Stand ts [w] :=
  ⟨List.cons_ne_nil w [], by simpa using hs, by simpa using hw⟩

private theorem cons (hs : w.isSegment = true) (hw : w ∈ namesAll ts) (h : Stand ts ws) :
    Stand ts (w :: ws) :=
  ⟨List.cons_ne_nil w ws, List.forall_mem_cons.mpr ⟨hs, h.segments⟩,
    List.forall_mem_cons.mpr ⟨hw, h.within⟩⟩

end Stand

/-- What is declared by items that are read up to the end stands among their tokens if that is so
for each of them. -/
theorem stand_of_itemsRule {g : Grammar} [g.Deepens g] {c d : Cursor} {items : List Item}
    (hitem : ∀ {c d item}, g.item c = some (item, d) → ∀ e ∈ item.declared, Stand c.ahead e.1)
    (h : Declaration.itemsRule g c = some (items, d)) :
    ∀ e ∈ Item.declaredAll items, Stand c.ahead e.1 := by
  obtain ⟨⟨_, c₁⟩, hattributes, hitems⟩ := Option.bind_eq_some_iff.mp h
  clear h
  have hmem : ∀ item ∈ items, ∀ e ∈ item.declared, Stand c.ahead e.1 := by
    intro item hi e he
    obtain ⟨c₂, c₄, hread, hs₂⟩ := exists_of_untilEnd inferInstance hitems hi
    obtain ⟨⟨_, c₃⟩, houter, hread⟩ := Option.bind_eq_some_iff.mp hread
    have hs₃ : c₃.ahead <:+ c₂.ahead := isSuffix_of_below inferInstance houter
    have hs₁ : c₁.ahead <:+ c.ahead := isSuffix_of_below inferInstance hattributes
    exact (hitem hread e he).of_isSuffix (hs₃.trans (hs₂.trans hs₁))
  clear hitems
  induction items with
  | nil => simp [Item.declaredAll]
  | cons item items ih =>
    obtain ⟨hfirst, hrest⟩ := List.forall_mem_cons.mp hmem
    intro e he
    rw [Item.declaredAll, List.mem_append] at he
    exact he.elim (hfirst e) (ih hrest e)

namespace Declaration

variable {g : Grammar} {c d : Cursor} {item : Item}

/-- What defines a name begins with a keyword and that name. -/
theorem stand_of_heads {w : Word} {f : Definition} (h : Heads c.ahead (.defines w f)) :
    ∀ e ∈ (Item.defines w f).declared, Stand c.ahead e.1 := by
  obtain ⟨hw, v, rest, hc, -⟩ := h
  intro e he
  rw [Item.declared, List.mem_singleton] at he
  rw [he]
  exact .single (Word.isSegment_of_isKeyword hw) (by simp [hc, namesAll, Token.names])

/-- The names of a module stand in it if those of its items stand in its braces. -/
theorem stand_of_moduleItem (hg : ∀ {c d items}, itemsRule g c = some (items, d) →
      ∀ e ∈ Item.declaredAll items, Stand c.ahead e.1)
    (h : moduleItem g c = some (item, d)) : ∀ e ∈ item.declared, Stand c.ahead e.1 := by
  obtain rfl | ⟨v, w, items, body, printed, rfl, -, hname, hc, hin⟩ := exists_of_moduleItem h
  · simp [Item.declared]
  · have hs : without ["unsafe"] c.ahead <:+ c.ahead := by
      unfold without
      split
      · exact List.drop_suffix 1 c.ahead
      · exact List.suffix_refl c.ahead
    have hw : w.isSegment = true := by
      rcases hname with hw | hw
      · exact Word.isSegment_of_isKeyword hw
      · simp [Word.isSegment, Word.segmentKeys, hw]
    have hitems : ∀ e ∈ Item.declaredAll items, Stand body e.1 := by
      unfold inside at hin
      split at hin
      · rename_i hr
        cases hin
        exact hg hr
      · cases hin
    intro e he
    rw [Item.declared] at he
    obtain ⟨e', he', rfl⟩ := List.mem_map.mp he
    rw [hc] at hs
    have hbody : Stand (.word v :: .word w :: .group .brace body :: d.ahead) e'.1 :=
      (hitems e' he').mono fun u hu => by simp [namesAll, Token.names, hu]
    exact ((hbody.cons hw (by simp [namesAll, Token.names])).of_isSuffix hs)

private theorem stand_of_itemRule (hg : ∀ {c d items}, itemsRule g c = some (items, d) →
      ∀ e ∈ Item.declaredAll items, Stand c.ahead e.1)
    (h : itemRule g c = some (item, d)) : ∀ e ∈ item.declared, Stand c.ahead e.1 := by
  obtain ⟨⟨visible, c₁⟩, hv, -⟩ := Option.bind_eq_some_iff.mp h
  have hs : c₁.ahead <:+ c.ahead := isSuffix_of_below inferInstance hv
  suffices hall : ∀ e ∈ item.declared, Stand c₁.ahead e.1 from
    fun e he => (hall e he).of_isSuffix hs
  obtain rfl | hm | ⟨w, f, rfl, hheads⟩ := cases_itemRule hv h
  · simp [Item.declared]
  · exact stand_of_moduleItem hg hm
  · exact stand_of_heads hheads

end Declaration

private theorem stand_of_item {n : Nat} {c d : Cursor} {item : Item}
    (h : (Grammar.upTo n).item c = some (item, d)) :
    ∀ e ∈ item.declared, Stand c.ahead e.1 := by
  induction n generalizing c d item with
  | zero => cases h
  | succ n ih =>
    have := Grammar.deepens_upTo (Nat.le_refl n)
    exact Declaration.stand_of_itemRule (fun hitems => stand_of_itemsRule ih hitems) h

/-- The names under which a source defines something are read again where they are written, and may
be the segments of a path. -/
theorem exists_stand_of_items? {text : String} {items : List Item} (h : items? text = some items) :
    ∃ ts, (∀ w ∈ namesAll ts, w.isLegible = true) ∧
      ∀ e ∈ Item.declaredAll items, Stand ts e.1 := by
  obtain ⟨ts, hscan, h⟩ := Option.bind_eq_some_iff.mp h
  refine ⟨ts, fun w => Lexer.isLegible_of_scanChars hscan, ?_⟩
  obtain ⟨⟨found, _⟩, hread, hfound⟩ := Option.bind_eq_some_iff.mp h
  cases hfound
  unfold recognise whole inside at hread
  split at hread
  · rename_i hread'
    cases hread
    have := Grammar.deepens_upTo (Nat.le_refl (8 * Token.sizeAll ts + 8))
    exact stand_of_itemsRule (fun hitem => stand_of_item hitem) hread'
  · cases hread

end Switchboard.Source
