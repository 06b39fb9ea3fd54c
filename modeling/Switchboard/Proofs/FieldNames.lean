import Mathlib.Data.List.TakeWhile
import Switchboard.Proofs.Acceptance

/-! Names of fields. The fields of a type are told apart by their texts, and where its objects are
made by the names that these texts stand for: white space, comments and the sign of a raw name are
not part of a name, and a keyword is written with that sign. -/

namespace Switchboard

open Text (Identifier.isContinue Identifier.isStart)
open Source (Word)

namespace Source

namespace Lexer

/-- A text without the sign of a raw name in front. -/
def unraw : List Char → List Char
  | 'r' :: '#' :: rest => rest
  | cs => cs

variable {cs name rest : List Char} {w : Word}

private theorem name?_eq (h : name? cs = some (name, rest)) :
    name = cs.takeWhile Identifier.isContinue ∧ rest = cs.dropWhile Identifier.isContinue ∧
      ∃ c more, cs = c :: more ∧ Identifier.isContinue c = true := by
  unfold name? at h
  split at h
  · cases h
  · rename_i c more
    split at h
    · rename_i hc
      have hcontinue := Text.Identifier.isContinue_of_isStart hc
      cases h
      exact ⟨by simp [hcontinue], by simp [hcontinue], c, more, rfl, hcontinue⟩
    · cases h

/-- A name has what stands behind the sign of a raw name, if that is there. -/
theorem text_of_word? (h : word? cs = some (w, rest)) :
    w.text = String.ofList ((unraw cs).takeWhile Identifier.isContinue) := by
  unfold word? at h
  split at h
  · split at h
    · rename_i hn
      dsimp only at h
      split at h
      · cases h
      · cases h
        exact congrArg String.ofList (name?_eq hn).1
    · cases h
  · rename_i hr
    obtain ⟨⟨found, later⟩, hn, he⟩ := Option.map_eq_some_iff.mp h
    cases he
    rw [unraw, ← (name?_eq hn).1]
    · rfl
    · exact hr

end Lexer

open Lexer

/-- The name that the text of a field stands for. -/
def fieldName (text : String) : String :=
  let cs := dropOrderMark text.toList
  String.ofList ((unraw (skipGaps cs.length cs)).takeWhile Identifier.isContinue)

private theorem text_of_identifier? {text : String} {w : Word} (h : identifier? text = some w) :
    w.text = fieldName text := by
  obtain ⟨rest, hl, -⟩ := word?_of_scanChars (identifier?_eq_some_iff.mp h).1
  exact text_of_word? (word?_of_leaf? hl)

/-- A text that is a name once it is made raw stands for all that it has up to a gap. -/
theorem text_of_identifier?_raw {text : String} {w : Word}
    (h : identifier? ("r#" ++ text) = some w) : w.text = fieldName text := by
  have hs := (identifier?_eq_some_iff.mp h).1
  have hr : Identifier.isContinue 'r' = true := by decide
  have hc : ("r#" ++ text).toList = 'r' :: '#' :: text.toList := by simp
  rw [scan, hc, dropOrderMark_of_isContinue hr] at hs
  obtain ⟨rest, hl, hrest⟩ := word?_of_scanChars hs
  rw [skipGaps_of_isContinue hr] at hl
  have hw := word?_of_leaf? hl
  rw [text_of_word? hw, unraw]
  -- the name begins right at the front, and a second sign of a raw name would be left after it
  have hfront : ∃ c more, text.toList = c :: more ∧ Identifier.isContinue c = true ∧
      unraw text.toList = text.toList := by
    simp only [word?] at hw
    split at hw
    · rename_i hn
      obtain ⟨-, hd, c, more, he, hcontinue⟩ := name?_eq hn
      split at hw
      · cases hw
      · cases hw
        refine ⟨c, more, he, hcontinue, ?_⟩
        unfold unraw
        split
        · rename_i later hraw
          have hh : Identifier.isContinue '#' = false := by decide
          have hg : isGap '#' = false := by decide
          rw [hraw, List.dropWhile_cons_of_pos hr, List.dropWhile_cons_of_neg (by simp [hh])] at hd
          rw [hd] at hrest
          simp [skipGaps, plainComment?, hg] at hrest
        · rfl
    · cases hw
  obtain ⟨c, more, he, hcontinue, hraw⟩ := hfront
  rw [fieldName, he, dropOrderMark_of_isContinue hcontinue, skipGaps_of_isContinue hcontinue, ← he,
    hraw]

private theorem text_of_field? {text : String} {w : Word} (h : field? text = some w) :
    w.text = fieldName text := by
  rw [field?, Option.orElse_eq_orElse, Option.orElse_eq_or, Option.or_eq_some_iff] at h
  exact h.elim text_of_identifier? fun hr => text_of_identifier?_raw hr.2

/-- A text of nothing but characters of names stands for itself. -/
theorem fieldName_of_bare {text : String} (h : text.toList.all Identifier.isContinue = true) :
    fieldName text = text := by
  cases ht : text.toList with
  | nil =>
    rw [fieldName, ht]
    exact (String.toList_eq_nil_iff.mp ht).symm
  | cons c cs =>
    have hall := List.all_eq_true.mp h
    have hc : Identifier.isContinue c = true := hall c (by simp [ht])
    have hraw : unraw (c :: cs) = c :: cs := by
      unfold unraw
      split
      · rename_i he
        have hh : Identifier.isContinue '#' = false := by decide
        rw [hall '#' (by simp [ht, he])] at hh
        cases hh
      · rfl
    rw [fieldName, ht, dropOrderMark_of_isContinue hc, skipGaps_of_isContinue hc, hraw, ← ht,
      List.takeWhile_eq_self_iff.mpr hall, String.ofList_toList]

end Source

namespace Emission

open Source (fieldName)

/-- The members of fields with proper names, by what the texts stand for. -/
theorem exists_words_of_members {fields : List String}
    (h : ∀ field ∈ fields, Naming.fieldFault? field = none) :
    ∃ ws : List Word, members (.named fields) = .ok (ws.map .field) ∧
      ws.map Word.text = fields.map fieldName := by
  obtain ⟨found, hf⟩ := Traversal.exists_mapM_eq_ok fun field hm =>
    (isOk_fieldMember_iff field).mpr (h field hm)
  suffices hs : ∃ ws : List Word, found = ws.map .field ∧ ws.map Word.text = fields.map fieldName by
    obtain ⟨ws, rfl, ht⟩ := hs
    exact ⟨ws, hf, ht⟩
  have hall := Traversal.mapM_eq_ok_iff.mp hf
  clear hf h
  induction hall with
  | nil => exact ⟨[], rfl, rfl⟩
  | @cons field member fields found hm _ ih =>
    obtain ⟨ws, rfl, ht⟩ := ih
    obtain ⟨w, rfl⟩ := fieldMember_eq_ok hm
    have hw : Source.field? field = some w := by
      unfold fieldMember at hm
      split at hm <;> cases hm
      assumption
    exact ⟨w :: ws, rfl, by rw [List.map_cons, List.map_cons, ht, Source.text_of_field? hw]⟩

variable {m : Model} {p : SchemaPath} {fields : List String}

/-- Where objects of a type in a valid model are made, each member has the name that its field
stands for, so no member is set twice just if no two fields stand for one name. That holds whenever
the fields have nothing but the characters of names. -/
theorem members_distinct_iff (hv : m.isValid = true)
    (he : (p, .named fields) ∈ m.types.entries) :
    ∃ (ws : List Word) (a : ConverterArm), members (.named fields) = .ok (ws.map .field) ∧
      mappedArm ⟨p, .named fields⟩ = .ok a ∧ a.fields = some (fields.zip (ws.map .field)) ∧
      ws.map Word.text = fields.map fieldName ∧
      ((ws.map Word.text).Nodup ↔
        ∀ f ∈ fields, ∀ g ∈ fields, fieldName f = fieldName g → f = g) ∧
      ((∀ f ∈ fields, f.toList.all Identifier.isContinue = true) → (ws.map Word.text).Nodup) := by
  have hn := (Model.isValid_iff_wellNamed m).mp hv
  obtain ⟨hproper, hdistinct⟩ := hn.fields _ he fields rfl
  obtain ⟨ws, hw, ht⟩ := exists_words_of_members hproper
  have hwritable : IsWritable (.named fields) :=
    ⟨fun names hnames => by cases hnames; exact hproper, nofun⟩
  have hpath : Naming.pathFault? p.text = none := hn.types (p, .named fields) he
  have hok : (mappedArm ⟨p, .named fields⟩).isOk = true := isOk_mappedArm hpath hwritable
  obtain ⟨a, ha⟩ := Traversal.exists_of_isOk hok
  obtain ⟨found, hfound, -, -, hfields, -⟩ := mappedArm_eq_ok ha
  rw [hw, Except.ok.injEq] at hfound
  rw [← hfound] at hfields
  have hiff : (fields.map fieldName).Nodup ↔
      ∀ f ∈ fields, ∀ g ∈ fields, fieldName f = fieldName g → f = g :=
    ⟨fun h f hf g hg => List.inj_on_of_nodup_map h hf hg,
      fun h => hdistinct.map_on h⟩
  refine ⟨ws, a, hw, ha, hfields, ht, ?_, fun hbare => ?_⟩
  · rw [ht]
    exact hiff
  · rw [ht, List.map_congr_left fun f hf => Source.fieldName_of_bare (hbare f hf), List.map_id']
    exact hdistinct

/-- A model with a keyword and the same keyword made raw as fields of one type. -/
def twiceNamed : Model where
  groups := [⟨"a", none, [⟨"X"⟩]⟩]
  types := [("X", .named ["type", "r#type"])]

theorem members_distinct_iff_twiceNamed :
    twiceNamed.isValid = true ∧ ∃ ws : List Word,
      members (.named ["type", "r#type"]) = .ok (ws.map .field) ∧
      ws.map Word.text = ["type", "type"] := by
  have hv : twiceNamed.isValid = true := by decide +kernel
  have he : (⟨"X"⟩, .named ["type", "r#type"]) ∈ TypeTable.entries twiceNamed.types :=
    List.mem_singleton.mpr rfl
  obtain ⟨ws, -, hw, -, -, ht, -⟩ := members_distinct_iff hv he
  exact ⟨hv, ws, hw, ht.trans (by decide +kernel)⟩

/-- A valid model with a type one of whose members is set twice. -/
theorem members_repeated : twiceNamed.isValid = true ∧
    (⟨"X"⟩, .named ["type", "r#type"]) ∈ TypeTable.entries twiceNamed.types ∧
    members (.named ["type", "r#type"]) = .ok [.field ⟨true, "type"⟩, .field ⟨true, "type"⟩] :=
  ⟨by decide +kernel, List.mem_singleton.mpr rfl, by decide +kernel⟩

end Emission

end Switchboard
