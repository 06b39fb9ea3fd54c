import Mathlib.Data.List.Nodup
import Switchboard.Plan.Arity
import Switchboard.Proofs.Ownership

/-! What introspection is asked for while converter files are made. Making them visits the distinct
types in order, up to the first without a constructor, and parts them by their constructors. -/

namespace Switchboard

/-- Whether all that is known is what the introspector answers. -/
def ArityMemo.Faithful (ask : Introspector) (memo : ArityMemo) : Prop :=
  ∀ p c, SortedMap.get? p.text memo.known = some c → ask p = .ok c

theorem ArityMemo.faithful_empty (ask : Introspector) : ArityMemo.Faithful ask {} := by
  intro p c h
  cases h

namespace ArityFilter

variable {ask : Introspector}

/-- A remembered constructor is the one that the introspector would answer. -/
theorem constructor_answer {memo : ArityMemo} (hm : memo.Faithful ask) (p : SchemaPath) :
    (constructor ask p memo).2 = ask p := by
  simp only [constructor]
  cases hk : SortedMap.get? p.text memo.known with
  | some c => exact (hm p c hk).symm
  | none => cases ask p <;> rfl

theorem constructor_faithful {memo : ArityMemo} (hm : memo.Faithful ask) (p : SchemaPath) :
    (constructor ask p memo).1.Faithful ask := by
  simp only [constructor]
  cases hk : SortedMap.get? p.text memo.known with
  | some c => exact hm
  | none =>
    cases ha : ask p with
    | error e => exact hm
    | ok c =>
      intro q d hq
      rw [SortedMap.get?_insert] at hq
      by_cases ht : q.text = p.text
      · rw [if_pos ht] at hq
        cases hq
        rw [SchemaPath.text_inj.mp ht, ha]
      · rw [if_neg ht] at hq
        exact hm q d hq

/-- Asks for the constructors of types in order, up to the first that has none. -/
def visit (ask : Introspector) : List SchemaPath → ArityFilter Unit
  | [], memo => (memo, .ok ())
  | p :: rest, memo =>
    match constructor ask p memo with
    | (memo, .error e) => (memo, .error e)
    | (memo, .ok _) => visit ask rest memo

private theorem visit_append (ask : Introspector) (ps qs : List SchemaPath) (memo : ArityMemo) :
    visit ask (ps ++ qs) memo =
      match visit ask ps memo with
      | (memo, .error e) => (memo, .error e)
      | (memo, .ok _) => visit ask qs memo := by
  induction ps generalizing memo with
  | nil => rfl
  | cons p rest ih =>
    simp only [List.cons_append, visit]
    split
    · rfl
    · exact ih _

private theorem visit_faithful {memo : ArityMemo} (hm : memo.Faithful ask) (ps : List SchemaPath) :
    (visit ask ps memo).1.Faithful ask := by
  induction ps generalizing memo with
  | nil => exact hm
  | cons p rest ih =>
    have hc := constructor_faithful hm p
    simp only [visit]
    split
    · rename_i e he
      rw [he] at hc
      exact hc
    · rename_i c he
      rw [he] at hc
      exact ih hc

/-- Types that are not yet known are asked for one after the other. -/
theorem visit_of_ok {ps : List SchemaPath} (memo : ArityMemo) (hn : ps.Nodup)
    (hk : ∀ p ∈ ps, SortedMap.get? p.text memo.known = none)
    (hok : ∀ p ∈ ps, ∃ c, ask p = .ok c) :
    (visit ask ps memo).2 = .ok () ∧
      (visit ask ps memo).1.asked = (ps.map fun p => (p, ask p)).reverse ++ memo.asked := by
  induction ps generalizing memo with
  | nil => exact ⟨rfl, rfl⟩
  | cons p rest ih =>
    obtain ⟨hp, hn⟩ := List.nodup_cons.mp hn
    obtain ⟨c, hc⟩ := hok p List.mem_cons_self
    simp only [visit, constructor, hk p List.mem_cons_self, hc]
    have hr : ∀ q ∈ rest,
        SortedMap.get? q.text (SortedMap.insert p.text c memo.known) = none := by
      intro q hq
      have ht : q.text ≠ p.text := fun he => hp (SchemaPath.text_inj.mp he ▸ hq)
      rw [SortedMap.get?_insert, if_neg ht]
      exact hk q (List.mem_cons_of_mem p hq)
    obtain ⟨hv, ha⟩ := ih ⟨_, (p, .ok c) :: memo.asked⟩ hn hr
      fun q hq => hok q (List.mem_cons_of_mem p hq)
    refine ⟨hv, ?_⟩
    rw [ha]
    simp [hc]

/-- A type without a constructor is the last that is asked for. -/
theorem visit_of_error {before : List SchemaPath} (after : List SchemaPath) {p : SchemaPath}
    {e : IntrospectionError} {memo : ArityMemo} (hm : memo.Faithful ask) (hn : before.Nodup)
    (hk : ∀ q ∈ before, SortedMap.get? q.text memo.known = none)
    (hok : ∀ q ∈ before, ∃ c, ask q = .ok c) (he : ask p = .error e) :
    (visit ask (before ++ p :: after) memo).2 = .error e ∧
      (visit ask (before ++ p :: after) memo).1.asked =
        ((before ++ [p]).map fun q => (q, ask q)).reverse ++ memo.asked := by
  obtain ⟨hv, ha⟩ := visit_of_ok memo hn hk hok
  have hf := visit_faithful hm before
  rw [visit_append]
  cases hr : visit ask before memo with
  | mk memo' result =>
    rw [hr] at hv ha hf
    cases hv
    have hu : SortedMap.get? p.text memo'.known = none := by
      cases hg : SortedMap.get? p.text memo'.known with
      | none => rfl
      | some c =>
        have := hf p c hg
        rw [he] at this
        cases this
    simp only [visit, constructor, hu, he]
    refine ⟨trivial, ?_⟩
    simp only at ha
    simp [ha, he]

/-! What is made of the answers -/

/-- The types with parameters, with their constructors. -/
def mappedOf (ask : Introspector) (ps : List SchemaPath) : List MappedType :=
  ps.filterMap fun p =>
    match ask p with
    | .ok c => if c.hasFields then some ⟨p, c⟩ else none
    | .error _ => none

/-- The types without parameters. -/
def fieldlessOf (ask : Introspector) (ps : List SchemaPath) : List SchemaPath :=
  ps.filter fun p =>
    match ask p with
    | .ok c => !c.hasFields
    | .error _ => false

theorem mem_mappedOf (p : SchemaPath) (c : Constructor) (ps : List SchemaPath) :
    ⟨p, c⟩ ∈ mappedOf ask ps ↔ p ∈ ps ∧ ask p = .ok c ∧ c.hasFields := by
  rw [mappedOf, List.mem_filterMap]
  constructor
  · rintro ⟨q, hq, h⟩
    cases ha : ask q with
    | error e => simp [ha] at h
    | ok d =>
      simp only [ha, Option.ite_none_right_eq_some, Option.some.injEq, MappedType.mk.injEq] at h
      obtain ⟨hd, rfl, rfl⟩ := h
      exact ⟨hq, ha, hd⟩
  · rintro ⟨hp, ha, hc⟩
    exact ⟨p, hp, by simp [ha, hc]⟩

theorem parts_cons_of_hasFields {p : SchemaPath} {c : Constructor} (hc : ask p = .ok c)
    (hf : c.hasFields = true) (rest : List SchemaPath) :
    mappedOf ask (p :: rest) = ⟨p, c⟩ :: mappedOf ask rest ∧
      fieldlessOf ask (p :: rest) = fieldlessOf ask rest := by
  simp [mappedOf, fieldlessOf, hc, hf]

theorem parts_cons_of_fieldless {p : SchemaPath} {c : Constructor} (hc : ask p = .ok c)
    (hf : c.hasFields = false) (rest : List SchemaPath) :
    mappedOf ask (p :: rest) = mappedOf ask rest ∧
      fieldlessOf ask (p :: rest) = p :: fieldlessOf ask rest := by
  simp [mappedOf, fieldlessOf, hc, hf]

/-- Mapped and fieldless types together are all types for which there are answers. -/
theorem mapped_append_fieldless_perm {ps : List SchemaPath} (hok : ∀ p ∈ ps, ∃ c, ask p = .ok c) :
    ((mappedOf ask ps).map MappedType.path ++ fieldlessOf ask ps).Perm ps := by
  induction ps with
  | nil => exact .refl []
  | cons p rest ih =>
    obtain ⟨c, hc⟩ := hok p List.mem_cons_self
    have hr := ih fun q hq => hok q (List.mem_cons_of_mem p hq)
    cases hf : c.hasFields with
    | true =>
      obtain ⟨hm, hl⟩ := parts_cons_of_hasFields hc hf rest
      rw [hm, hl]
      exact hr.cons p
    | false =>
      obtain ⟨hm, hl⟩ := parts_cons_of_fieldless hc hf rest
      rw [hm, hl]
      exact List.perm_middle.trans (hr.cons p)

/-- Parting types is visiting those not yet seen, each once, and splitting them by the answers. -/
theorem part_eq {memo : ArityMemo} (hm : memo.Faithful ask) (seen ps : List SchemaPath) :
    let fresh := (ps.filter fun p => !seen.contains p).eraseDups
    part ask seen ps memo =
      match visit ask fresh memo with
      | (memo, .error e) => (memo, .error e)
      | (memo, .ok _) => (memo, .ok (mappedOf ask fresh, fieldlessOf ask fresh)) := by
  induction ps generalizing seen memo with
  | nil => rfl
  | cons p rest ih =>
    dsimp only
    rw [part, List.filter_cons]
    cases hs : seen.contains p with
    | true =>
      simp only [if_true, Bool.not_true, Bool.false_eq_true, if_false]
      exact ih hm seen
    | false =>
      have hf : ((rest.filter fun q => !seen.contains q).filter fun q => !q == p) =
          rest.filter fun q => !(p :: seen).contains q := by
        rw [List.filter_filter]
        apply List.filter_congr
        intro q _
        by_cases hq : q = p <;> simp [hq]
      have ha := constructor_answer hm p
      have hc := constructor_faithful hm p
      simp only [Bool.false_eq_true, if_false, Bool.not_false, if_true, List.eraseDups_cons, hf,
        visit]
      cases hr : constructor ask p memo with
      | mk memo' answer =>
        rw [hr] at ha hc
        simp only at ha hc
        subst ha
        cases ha : ask p with
        | error e => rfl
        | ok c =>
          simp only
          rw [ih hc (p :: seen)]
          cases visit ask (rest.filter fun q => !(p :: seen).contains q).eraseDups memo' with
          | mk memo'' result =>
            cases result with
            | error e => rfl
            | ok u => cases hf : c.hasFields <;> simp [mappedOf, fieldlessOf, ha, hf]

/-- The converter file of a group that owns some types, as the answers make it. -/
def fileOf (ask : Introspector) (index : Nat) (g : Group) (owned : List SchemaPath) :
    ConverterFile :=
  ⟨index, g.name, g.converterName, g.moduleName, mappedOf ask owned.eraseDups,
    fieldlessOf ask owned.eraseDups⟩

/-- Making all converter files is visiting the types of each group in order, each once a group. -/
theorem files_eq {memo : ArityMemo} (hm : memo.Faithful ask)
    (shares : List (Nat × Group × List SchemaPath)) :
    files ask shares memo =
      match visit ask (shares.flatMap fun share => share.2.2.eraseDups) memo with
      | (memo, .error e) => (memo, .error e)
      | (memo, .ok _) => (memo, .ok (shares.map fun (i, g, owned) => fileOf ask i g owned)) := by
  induction shares generalizing memo with
  | nil => rfl
  | cons share rest ih =>
    obtain ⟨i, g, owned⟩ := share
    have hp := part_eq hm [] owned
    have hv := visit_faithful hm owned.eraseDups
    simp only [List.contains_nil, Bool.not_false, List.filter_true] at hp
    simp only [files, file, hp, List.flatMap_cons, visit_append]
    cases hr : visit ask owned.eraseDups memo with
    | mk memo' result =>
      rw [hr] at hv
      cases result with
      | error e => rfl
      | ok u =>
        simp only [ih hv]
        cases visit ask (rest.flatMap fun share => share.2.2.eraseDups) memo' with
        | mk memo'' result => cases result <;> rfl

end ArityFilter

end Switchboard
