import Switchboard.Naming.Check
import Switchboard.Proofs.DefinedNames
import Switchboard.Proofs.JoinedPaths
import Switchboard.Proofs.NormalPaths

/-! Types by their written names. A catalogue holds a type under the path that its name and those of
its modules make without the signs of raw names, while a path is asked for as it is written. -/

namespace Switchboard

open Text
open Source (Definition Item Word joined)

namespace Source

open Lexer NamePath

variable {v w : Word} {vs ws : List Word}

/-- A name without the sign of a raw one. -/
def Word.bare (w : Word) : Word := .plain w.text

theorem Word.bare_eq_self_iff : w.bare = w ↔ w.raw = false := by
  obtain ⟨raw, text⟩ := w
  simp [bare, plain, eq_comm]

private theorem Word.isLegible_bare (h : w.isLegible = true) : w.bare.isLegible = true := by
  unfold isLegible at h ⊢
  rw [Bool.and_eq_true] at h
  simpa [bare, plain] using h.1

private theorem NamePath.links_injective : Function.Injective links := by
  intro vs ws h
  induction vs generalizing ws with
  | nil =>
    cases ws with
    | nil => rfl
    | cons w ws => cases h
  | cons v vs ih =>
    cases ws with
    | nil => cases h
    | cons w ws =>
      simp only [links_cons, List.cons.injEq, Token.word.injEq, true_and] at h
      rw [h.1, ih h.2]

namespace Lexer

/-- Names that are written in the same way are the same, since they are read again. -/
theorem linkText_inj (hv : ∀ w ∈ vs, w.isLegible = true) (hw : ∀ w ∈ ws, w.isLegible = true) :
    linkText vs = linkText ws ↔ vs = ws := by
  refine ⟨fun h => ?_, congrArg linkText⟩
  have hread := scanFrom_linkText hv (Nat.lt_succ_self _) []
  rw [h, scanFrom_linkText hw (Nat.lt_succ_self _)] at hread
  exact links_injective (Option.some.inj hread).symm

private theorem not_isBlank_of_mem_linkText (hl : ∀ w ∈ ws, w.isLegible = true) {c : Char}
    (hc : c ∈ linkText ws) : isBlank c = false := by
  obtain rfl | rfl | h := mem_linkText hl hc
  · decide
  · decide
  · have hgap := not_isGap_of_isContinue h
    simp only [isGap, Bool.or_eq_false_iff] at hgap
    exact hgap.1.1

end Lexer

/-- Names that are read again where they are written, so that they can be told from others by the
path that they make behind a text. -/
structure Spelt (ws : List Word) : Prop where
  nonempty : ws ≠ []
  legible : ∀ w ∈ ws, w.isLegible = true

namespace Spelt

private theorem bare (h : Spelt ws) : Spelt (ws.map Word.bare) where
  nonempty := by simpa using h.nonempty
  legible := List.forall_mem_map.mpr fun w hw => Word.isLegible_bare (h.legible w hw)

private theorem trails (h : Spelt ws) : Trails (linkText ws) := trails_linkText h.nonempty h.legible

end Spelt

/-- The names of a source have been read, and may be segments of a path. -/
theorem spelt_of_items? {text : String} {items : List Item} (hi : items? text = some items)
    {e : List Word × Definition} (he : e ∈ Item.declaredAll items) :
    Spelt e.1 ∧ ∀ w ∈ e.1, w.isSegment = true := by
  obtain ⟨ts, hlegible, hstand⟩ := exists_stand_of_items? hi
  have hs := hstand e he
  exact ⟨⟨hs.nonempty, fun w hw => hlegible w (hs.within w hw)⟩, hs.segments⟩

end Source

namespace SchemaPath

open Source Lexer

variable {text : String} {vs ws : List Word}

private theorem dropRoot_append (c d : Char) (cs rest : List Char) :
    dropRoot (c :: d :: cs ++ rest) = dropRoot (c :: d :: cs) ++ rest := by
  by_cases h : c = ':' ∧ d = ':'
  · obtain ⟨rfl, rfl⟩ := h
    rfl
  · have hn (cs : List Char) : dropRoot (c :: d :: cs) = c :: d :: cs :=
      dropRoot_eq_self_iff.mpr fun hp => h (by simpa [eq_comm] using hp)
    rw [List.cons_append, List.cons_append, hn, hn]
    rfl

/-- The path of a text with names behind has these names behind what the text makes of it. -/
theorem text_of_joined (h : Spelt ws) : (of (joined text ws)).text.toList =
    dropRoot (text.toList.dropWhile isBlank ++ [':', ':']) ++ (linkText ws).drop 2 := by
  have hend : (linkText ws).reverse.dropWhile isBlank = (linkText ws).reverse := by
    cases hr : (linkText ws).reverse with
    | nil => rfl
    | cons c cs =>
      have hc : c ∈ linkText ws := List.mem_reverse.mp (hr ▸ List.mem_cons_self)
      exact List.dropWhile_cons_of_neg (by simp [not_isBlank_of_mem_linkText h.legible hc])
  obtain ⟨more, hmore⟩ := h.trails.colons
  have htrim : trimChars (text.toList ++ linkText ws) =
      text.toList.dropWhile isBlank ++ linkText ws := by
    rw [trimChars, dropWhile_trail (by decide) h.trails, List.reverse_append, List.dropWhile_append,
      hend]
    simp [hmore]
  rw [of, String.toList_ofList, toList_joined, normal, htrim, hmore]
  rcases text.toList.dropWhile isBlank with _ | ⟨c, _ | ⟨d, cs⟩⟩
  · rfl
  · exact dropRoot_append c ':' [':'] more
  · simpa using dropRoot_append c d (cs ++ [':', ':']) more

private theorem of_joined_inj (hv : Spelt vs) (hw : Spelt ws) :
    of (joined text vs) = of (joined text ws) ↔ vs = ws := by
  refine ⟨fun h => ?_, fun h => by rw [h]⟩
  have ht : (of (joined text vs)).text.toList = (of (joined text ws)).text.toList := by rw [h]
  rw [text_of_joined hv, text_of_joined hw, List.append_cancel_left_eq] at ht
  rw [← linkText_inj hv.legible hw.legible]
  obtain ⟨more, hmore⟩ := hv.trails.colons
  obtain ⟨more', hmore'⟩ := hw.trails.colons
  rw [hmore, hmore'] at ht ⊢
  exact congrArg (':' :: ':' :: ·) ht

end SchemaPath

namespace Catalogue

open SortedMap (get?)
open Source (Spelt)

variable {module text : String} {names : List Word}

/-- A definition has the path of its names without the signs of raw ones. -/
theorem pathOf_eq (hm : module ≠ "") (names : List Word) :
    pathOf module names = .of (joined module (names.map Word.bare)) := by
  rw [pathOf]
  congr 1
  induction names generalizing module with
  | nil => rfl
  | cons w ws ih =>
    have hstep : joined module ((w :: ws).map Word.bare) =
        joined (module ++ "::" ++ w.text) (ws.map Word.bare) := rfl
    have he : (module ++ "::" ++ w.text) ≠ "" := by simp [hm]
    rw [hstep, List.foldl_cons, if_neg (by simpa using hm), ih he]

/-- A definition that no later one replaces is the latest of its path. -/
theorem latest?_append_cons {before after : List (SchemaPath × Definition)} {p : SchemaPath}
    {d : Definition} (h : ∀ e ∈ after, e.1 ≠ p) :
    latest? (before ++ (p, d) :: after) p = some d := by
  have hnone : latest? after p = none := by
    rw [← Option.not_isSome_iff_eq_none, isSome_latest?_iff]
    rintro hp
    obtain ⟨e, he, hep⟩ := List.mem_map.mp hp
    exact h e he hep
  induction before with
  | nil => rw [List.nil_append, latest?_cons, hnone, if_pos rfl, Option.none_or]
  | cons e before ih => rw [List.cons_append, latest?_cons, ih, Option.some_or]

/-- What is known after definitions when nothing was known before. -/
theorem introspector_define (found : List (SchemaPath × Definition)) (p : SchemaPath) :
    (define [] found).introspector p = match latest? found p with
      | some d => match d.shape? with
        | some shape => .ok shape
        | none => .error (.unsupported p (d.kind ++ " has no single constructor"))
      | none => .error (.unknownType p) := by
  have h := introspector_eq (define [] found) p
  rw [get?_define, get?, Option.or_none] at h
  exact h

/-- A path with names behind it that may be segments is a path. -/
theorem pathFault?_joined (hm : Naming.pathFault? module = none) (hr : Spelt names)
    (hs : ∀ w ∈ names, w.isSegment = true) : Naming.pathFault? (joined module names) = none := by
  have hpath : (Source.path? module).isSome = true := by
    unfold Naming.pathFault? at hm
    split at hm
    · assumption
    · cases hm
  exact if_pos (Source.isSome_path?_joined hpath hs hr.legible)

section

variable {items : List Item} {d : Definition} {before after : List (List Word × Definition)}

private theorem found_source (hi : Source.items? text = some items) :
    Call.found (.source module text) =
      (Item.declaredAll items).map fun e => (pathOf module e.1, e.2) := by
  rw [Call.found, Call.items?, hi]
  rfl

/-- Under its names without the signs of raw ones the last definition that has them is found. -/
theorem latest?_bare (hm : module ≠ "") (hi : Source.items? text = some items)
    (hd : Item.declaredAll items = before ++ (names, d) :: after)
    (hlast : ∀ e ∈ after, e.1.map Word.bare ≠ names.map Word.bare) :
    latest? (Call.found (.source module text)) (.of (joined module (names.map Word.bare))) =
      some d := by
  have hread : ∀ e ∈ before ++ (names, d) :: after, Spelt e.1 :=
    fun e he => (Source.spelt_of_items? hi (hd ▸ he)).1
  rw [found_source hi, hd, List.map_append, List.map_cons, pathOf_eq hm]
  refine latest?_append_cons fun e he => ?_
  obtain ⟨f, hf, rfl⟩ := List.mem_map.mp he
  have hnames : Spelt names := hread (names, d) (by simp)
  rw [pathOf_eq hm, ne_eq, SchemaPath.of_joined_inj (hread f (by simp [hf])).bare hnames.bare]
  exact hlast f hf

/-- Under names one of which is raw nothing is found. -/
theorem latest?_raw (hm : module ≠ "") (hi : Source.items? text = some items) (hn : Spelt names)
    (hraw : ∃ w ∈ names, w.raw = true) :
    latest? (Call.found (.source module text)) (.of (joined module names)) = none := by
  rw [← Option.not_isSome_iff_eq_none, isSome_latest?_iff, found_source hi, List.map_map]
  intro hmem
  obtain ⟨e, he, hp⟩ := List.mem_map.mp hmem
  rw [Function.comp_apply, pathOf_eq hm,
    SchemaPath.of_joined_inj (Source.spelt_of_items? hi he).1.bare hn] at hp
  obtain ⟨w, hw, hr⟩ := hraw
  rw [← hp] at hw
  obtain ⟨v, -, rfl⟩ := List.mem_map.mp hw
  cases hr

/-- A struct without generic parameters in a source that is read for a proper module, which no later
definition under its names replaces. The module with these names behind, as they are written, is a
path. The shape of the struct is known under that just if none of the names is raw, and else nothing
is. What it is known under are its names without the signs of raw ones, and that is a path if they
can be segments of one, as most keywords cannot. -/
theorem claimable_iff {shape : Constructor} (hm : Naming.pathFault? module = none)
    (hi : Source.items? text = some items)
    (hd : Item.declaredAll items = before ++ (names, d) :: after)
    (hlast : ∀ e ∈ after, e.1.map Word.bare ≠ names.map Word.bare) (hs : d.shape? = some shape) :
    ∃ c, addSource [] module text = .ok c ∧
      Naming.pathFault? (joined module names) = none ∧
      (c.introspector (.of (joined module names)) = .ok shape ↔ ∀ w ∈ names, w.raw = false) ∧
      ((∃ w ∈ names, w.raw = true) → c.introspector (.of (joined module names)) =
        .error (.unknownType (.of (joined module names)))) ∧
      c.introspector (.of (joined module (names.map Word.bare))) = .ok shape ∧
      ((∀ w ∈ names, w.bare.isSegment = true) →
        Naming.pathFault? (joined module (names.map Word.bare)) = none) := by
  have hempty : module ≠ "" := by
    rintro rfl
    exact absurd hm (by decide +kernel)
  obtain ⟨hread, hsegments⟩ := Source.spelt_of_items? hi (e := (names, d)) (by simp [hd])
  have hadd : addSource [] module text = .ok (define [] (Call.found (.source module text))) := by
    rw [Call.addSource_eq, found_source hi, hi]
  have hbare : (define [] (Call.found (.source module text))).introspector
      (.of (joined module (names.map Word.bare))) = .ok shape := by
    simp only [introspector_define, latest?_bare hempty hi hd hlast, hs]
  have hraw (h : ∃ w ∈ names, w.raw = true) :
      (define [] (Call.found (.source module text))).introspector (.of (joined module names)) =
        .error (.unknownType (.of (joined module names))) := by
    simp only [introspector_define, latest?_raw hempty hi hread h]
  refine ⟨_, hadd, pathFault?_joined hm hread hsegments, ⟨fun h => ?_, fun h => ?_⟩, hraw, hbare,
    fun h => pathFault?_joined hm hread.bare (List.forall_mem_map.mpr h)⟩
  · intro w hw
    cases hr : w.raw with
    | false => rfl
    | true =>
      rw [hraw ⟨w, hw, hr⟩] at h
      cases h
  · rwa [List.map_congr_left fun w hw => Word.bare_eq_self_iff.mpr (h w hw), List.map_id'] at hbare

theorem claimable_iff_nested :
    ∃ c, addSource [] "m" "pub mod a { pub struct B; }" = .ok c ∧
      Naming.pathFault? "m::a::B" = none ∧ c.introspector (.of "m::a::B") = .ok .unit := by
  have hread : (Source.items? "pub mod a { pub struct B; }").map Item.declaredAll =
      some ([] ++ ([.plain "a", .plain "B"], .unit) :: []) := by decide +kernel
  have hm : Naming.pathFault? "m" = none := by decide +kernel
  obtain ⟨items, hi, hd⟩ := Option.map_eq_some_iff.mp hread
  obtain ⟨c, hc, hpath, hiff, -⟩ := claimable_iff hm hi hd (by simp) rfl
  exact ⟨c, hc, hpath, hiff.mpr (by decide)⟩

/-- A keyword that names a struct: the path of its written name is not known, and the one that is
known is no path. -/
theorem unknown_of_keyword :
    (Source.items? "pub struct r#type;").map Item.declaredAll = some [([⟨true, "type"⟩], .unit)] ∧
    joined "m" [⟨true, "type"⟩] = "m::r#type" ∧
    Naming.pathFault? "m" = none ∧ Naming.pathFault? "m::r#type" = none ∧
    Naming.pathFault? "m::type" = some (.notPath "m::type") ∧
    ∃ c, addSource [] "m" "pub struct r#type;" = .ok c ∧
      c.introspector (.of "m::r#type") = .error (.unknownType ⟨"m::r#type"⟩) ∧
      c.introspector (.of "m::type") = .ok .unit :=
  ⟨by decide +kernel, by decide +kernel, by decide +kernel, by decide +kernel, by decide +kernel,
    [("m::type", .unit)], by decide +kernel, by decide +kernel, by decide +kernel⟩

end

end Catalogue

end Switchboard
