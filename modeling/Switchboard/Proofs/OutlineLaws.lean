import Switchboard.Emission.Code
import Switchboard.Emission.Dispatcher
import Switchboard.Proofs.Angles
import Switchboard.Proofs.Traversal

/-! Outlines of what is emitted. A sequence that was put together from parts is split into them
again, and a match that was put together from arms is read as these arms. -/

namespace Switchboard

open Source (Token Word)

namespace Source.Outline

variable {ends : Token → Bool} {α : Type}

private theorem split_part {ts : List Token} {t : Token} {arrow : Bool}
    (h : Passes ends {} ⟨0, arrow⟩ ts) (ht : ends t = true) (rest : List Token) :
    split ends {} [] (ts ++ t :: rest) =
      ((ts, t) :: (split ends {} [] rest).1, (split ends {} [] rest).2) := by
  rw [h, split]
  simp [ht]

/-- That a part is read as one: nothing before its end ends it. -/
structure IsPart (ends : Token → Bool) (part : Part) : Prop where
  passes : Passes ends {} {} part.1
  ended : ends part.2 = true

/-- The tokens of parts in a row. -/
def joined (parts : List Part) : List Token := parts.flatMap fun part => part.1 ++ [part.2]

@[simp] theorem joined_cons (part : Part) (parts : List Part) :
    joined (part :: parts) = part.1 ++ part.2 :: joined parts := by
  simp [joined]

theorem flatMap_eq_joined (f : α → List Token) (part : α → Part)
    (h : ∀ a, f a = (part a).1 ++ [(part a).2]) (as : List α) :
    as.flatMap f = joined (as.map part) := by
  rw [joined, List.flatMap_map]
  congr 1
  exact funext h

theorem split_joined {parts : List Part} (h : ∀ part ∈ parts, IsPart ends part)
    (rest : List Token) :
    split ends {} [] (joined parts ++ rest) =
      (parts ++ (split ends {} [] rest).1, (split ends {} [] rest).2) := by
  induction parts with
  | nil => rfl
  | cons part parts ih =>
    obtain ⟨hp, hparts⟩ := List.forall_mem_cons.mp h
    rw [joined_cons, List.append_assoc, List.cons_append, split_part hp.passes hp.ended, ih hparts]
    rfl

@[simp] theorem joined_nil : joined [] = [] := rfl

private theorem parts?_joined {parts : List Part} (h : ∀ part ∈ parts, IsPart ends part) :
    parts? ends (joined parts) = some parts := by
  have hs := split_joined h []
  rw [List.append_nil] at hs
  simp [parts?, hs, split]

/-- Parts in a row are read one by one. -/
theorem bind_parts?_joined {β : Type} {read : Part → Option β} {parts : List Part} {found : List β}
    (h : List.Forall₂ (fun part b => IsPart ends part ∧ read part = some b) parts found) :
    (parts? ends (joined parts)).bind (List.mapM read) = some found := by
  rw [parts?_joined fun part hpart => ?_, Option.bind_some,
    Traversal.mapM_eq_some (h.imp fun _ _ hr => hr.2)]
  obtain ⟨_, _, hp, _⟩ := Traversal.exists_of_mem_left h hpart
  exact hp

theorem chosen?_cons (a : Arm) (arms : List Arm) (name : String) :
    chosen? (a :: arms) name = if a.pattern.covers name then some a.body else chosen? arms name := by
  unfold chosen?
  rw [List.find?_cons]
  cases a.pattern.covers name <;> rfl

end Source.Outline

namespace Emission

open Source.Outline

variable {α : Type}

private theorem alternatives_cons (key : String) {keys : List String} (h : keys ≠ []) :
    alternatives (key :: keys) = .string key :: .mark '|' .alone :: alternatives keys := by
  cases keys with
  | nil => exact absurd rfl h
  | cons next rest => rfl

theorem passes_alternatives (keys : List String) : Passes endsArm {} {} (alternatives keys) := by
  induction keys with
  | nil => exact passes_nil
  | cons key rest ih =>
    cases rest with
    | nil => exact passes_singleton fun _ => rfl
    | cons next rest =>
      rw [alternatives_cons key (by simp)]
      exact passes_append (s := [_, _]) (fun _ _ => rfl) ih

private theorem arrow?_alternatives (keys : List String) (body : List Token) :
    arrow? (alternatives keys ++ code "=>" ++ body) = some (alternatives keys, body) := by
  induction keys with
  | nil => rfl
  | cons key rest ih =>
    cases rest with
    | nil => rfl
    | cons next rest =>
      rw [alternatives_cons key (by simp)]
      change ((arrow? (alternatives (next :: rest) ++ code "=>" ++ body)).map _).map _ = _
      rw [ih]
      rfl

private theorem alternatives?_alternatives {keys : List String} (h : keys ≠ []) :
    alternatives? (alternatives keys) = some keys := by
  induction keys with
  | nil => exact absurd rfl h
  | cons key rest ih =>
    cases rest with
    | nil => simp [alternatives, alternatives?, Token.string, Source.stringValue?_source]
    | cons next rest =>
      rw [alternatives_cons key (by simp), Token.string, alternatives?,
        Source.stringValue?_source, ih (by simp)]

private theorem pattern?_alternatives {keys : List String} (h : keys ≠ []) :
    pattern? (alternatives keys) = some (.keys keys) := by
  have ha := alternatives?_alternatives h
  cases keys with
  | nil => exact absurd rfl h
  | cons key rest =>
    cases rest with
    | nil => exact congrArg (Option.map Pattern.keys) ha
    | cons next rest => exact congrArg (Option.map Pattern.keys) ha

theorem arm?_comma {keys : List String} (hk : keys ≠ []) (t : Token) (body : List Token)
    (c : Char) (s : Source.Spacing) :
    arm? (alternatives keys ++ code "=>" ++ t :: body, .mark c s) = some ⟨.keys keys, t :: body⟩ := by
  simp only [arm?, arrow?_alternatives, pattern?_alternatives hk, Option.map_some]

theorem arm?_group {keys : List String} (hk : keys ≠ []) (d : Source.Delimiter)
    (body : List Token) :
    arm? (alternatives keys ++ code "=>", .group d body) =
      some ⟨.keys keys, [.group d body]⟩ := by
  have ha := arrow?_alternatives keys []
  rw [List.append_nil] at ha
  simp [arm?, ha, pattern?_alternatives hk]

/-- The result for names that no arm has. -/
def unmatched : List Token :=
  call ":: std :: result :: Result :: Err"
    (call ":: typemux :: core :: MapperError :: unmatched" (code "type_name") ++ code ",")

/-- The arm for names that no other arm has. -/
def unmatchedPart : Part := (code "_ =>" ++ unmatched, .mark ',' .alone)

/-- A choice by the type name is read as the arms that it was made of, with that for all other names
at the end. -/
theorem matchOn?_arms {parts : List Part} {arms : List Arm}
    (h : List.Forall₂ (fun part arm => IsPart endsArm part ∧ arm? part = some arm) parts arms) :
    matchOn? "type_name" (code "match type_name" ++ brace (joined parts ++ unmatchedArm)) =
      some (arms ++ [⟨.wildcard, unmatched⟩]) := by
  have hu : IsPart endsArm unmatchedPart := ⟨fun _ _ => rfl, rfl⟩
  have hall : List.Forall₂ (fun part arm => IsPart endsArm part ∧ arm? part = some arm)
      (parts ++ [unmatchedPart]) (arms ++ [⟨.wildcard, unmatched⟩]) :=
    List.rel_append h (.cons ⟨hu, rfl⟩ .nil)
  have hj : joined parts ++ unmatchedArm = joined (parts ++ [unmatchedPart]) := by
    simp only [joined, List.flatMap_append]
    rfl
  change (parts? endsArm (joined parts ++ unmatchedArm)).bind (List.mapM arm?) = _
  rw [hj]
  exact bind_parts?_joined hall

theorem matchOn?_flatMap {f : α → List Token} {arm : α → Arm} {as : List α}
    (h : ∀ a ∈ as, ∃ part : Part, f a = part.1 ++ [part.2] ∧ IsPart endsArm part ∧
      arm? part = some (arm a)) :
    matchOn? "type_name" (code "match type_name" ++ brace (as.flatMap f ++ unmatchedArm)) =
      some (as.map arm ++ [⟨.wildcard, unmatched⟩]) := by
  obtain ⟨parts, hj, hparts⟩ : ∃ parts, as.flatMap f = joined parts ∧
      List.Forall₂ (fun part arm => IsPart endsArm part ∧ arm? part = some arm) parts
        (as.map arm) := by
    induction as with
    | nil => exact ⟨[], rfl, .nil⟩
    | cons a as ih =>
      obtain ⟨ha, has⟩ := List.forall_mem_cons.mp h
      obtain ⟨part, hf, hpart⟩ := ha
      obtain ⟨parts, hj, hparts⟩ := ih has
      refine ⟨part :: parts, ?_, .cons hpart hparts⟩
      rw [List.flatMap_cons, hf, hj, joined_cons, List.append_assoc, List.singleton_append]
  rw [hj]
  exact matchOn?_arms hparts

/-- The arms of both directions of conversion. -/
structure Conversions where
  decode : List Arm
  encode : List Arm

/-- The body of the one function with a name. -/
def bodyOf? (name : String) (functions : List Function) : Option (List Token) :=
  (only? (functions.filter fun f => f.name.is name)).map Function.body

/-- The arms of the functions by which single objects are converted. -/
def conversions? (body : List Token) : Option Conversions := do
  let functions ← functions? body
  let decode ← (bodyOf? "decode_one" functions).bind (matchOn? "type_name")
  let encode ← (bodyOf? "encode_one_as" functions).bind (matchOn? "type_name")
  return ⟨decode, encode⟩

/-- The names of the trait by which single objects are converted. -/
def objectTrait : List Word := [.plain "typemux", .plain "core", .plain "ObjectMapper"]

/-- How a type converts single objects is one item, whose functions have the arms of both
directions. -/
theorem exists_objectPart (lints : String) (type : Word) (decode encode : List Token) :
    ∃ part body, objectMapper lints type decode encode = part.1 ++ [part.2] ∧
      IsPart endsItem part ∧
      entry? part = some (.implementation (code ":: typemux :: core :: ObjectMapper") type body) ∧
      conversions? body = do
        let decode ← matchOn? "type_name" (code "match type_name" ++ brace (decode ++ unmatchedArm))
        let encode ← matchOn? "type_name" (code "match type_name" ++ brace (encode ++ unmatchedArm))
        return ⟨decode, encode⟩ :=
  ⟨(_, .group .brace _), _, rfl, ⟨fun _ _ => rfl, rfl⟩, rfl, rfl⟩

theorem words_objectMapper :
    Entry.words (code ":: typemux :: core :: ObjectMapper") = objectTrait := by decide

end Emission

end Switchboard
