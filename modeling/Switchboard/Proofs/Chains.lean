import Mathlib.Data.List.Basic
import Switchboard.Program

/-! Chains of introspectors. A chain answers as the first of its links that knows the type, and
those after it are not asked. How the links are grouped into chains is of no matter. -/

namespace Switchboard

namespace Introspector

variable {p : SchemaPath} {link : Introspector} {before links asked : List Introspector}
  {answer : Answer}

/-! ## The first link that knows -/

/-- Whether a link has an answer for a type, be it that the type cannot be introspected. -/
def Knows (link : Introspector) (p : SchemaPath) : Prop :=
  ∀ q, link p ≠ .error (.unknownType q)

private theorem isUnknown_iff {a : Answer} :
    isUnknown a = true ↔ ∃ q, a = .error (.unknownType q) := by
  rcases a with e | c
  · cases e <;> simp [isUnknown]
  · simp [isUnknown]

private theorem not_knows_iff : ¬ link.Knows p ↔ isUnknown (link p) = true := by
  simp [Knows, isUnknown_iff]

private theorem knows_iff : link.Knows p ↔ isUnknown (link p) = false := by
  rw [← Bool.not_eq_true, ← not_knows_iff, not_not]

/-- A link knows a type if it names a constructor or fails in any way but one. -/
theorem knows_iff_exists : link.Knows p ↔ (∃ c, link p = .ok c) ∨
    (∃ q reason, link p = .error (.unsupported q reason)) ∨
    (∃ module, link p = .error (.malformed module)) ∨
    ∃ file reason, link p = .error (.unreadable file reason) := by
  rw [Knows]
  rcases link p with e | c
  · cases e <;> simp
  · simp

/-- What comes of links that are asked for a type in turn: who is asked and what is answered. -/
inductive Decides (p : SchemaPath) : List Introspector → List Introspector → Answer → Prop
  /-- The first link that knows the type decides. -/
  | known {before : List Introspector} {link : Introspector} (after : List Introspector) :
    (∀ l ∈ before, ¬ l.Knows p) → link.Knows p →
      Decides p (before ++ link :: after) (before ++ [link]) (link p)
  /-- If none knows it, the type is unknown, whatever type the links say that they do not know. -/
  | unknown {links : List Introspector} :
    (∀ l ∈ links, ¬ l.Knows p) → Decides p links links (.error (.unknownType p))

namespace Decides

/-- Links after the one that decides change nothing. -/
theorem append_right (h : Decides p links asked answer)
    (ha : ∀ q, answer ≠ .error (.unknownType q)) (rest : List Introspector) :
    Decides p (links ++ rest) asked answer := by
  cases h with
  | known after hb hl =>
    rw [List.append_assoc, List.cons_append]
    exact .known (after ++ rest) hb hl
  | unknown _ => exact absurd rfl (ha p)

/-- Links in front that do not know the type are asked in vain. -/
theorem append_left (hb : ∀ l ∈ before, ¬ l.Knows p) (h : Decides p links asked answer) :
    Decides p (before ++ links) (before ++ asked) answer := by
  cases h with
  | known after hm hl =>
    rw [← List.append_assoc, ← List.append_assoc]
    exact .known after (List.forall_mem_append.mpr ⟨hb, hm⟩) hl
  | unknown hm => exact .unknown (List.forall_mem_append.mpr ⟨hb, hm⟩)

/-- If the type is unknown, all links have been asked and none knows it. -/
theorem of_unknown {q : SchemaPath} (h : Decides p links asked (.error (.unknownType q))) :
    (∀ l ∈ links, ¬ l.Knows p) ∧ asked = links := by
  generalize he : Except.error (IntrospectionError.unknownType q) = answer at h
  cases h with
  | known after hb hl => exact absurd he.symm (hl q)
  | unknown hm => exact ⟨hm, rfl⟩

end Decides

private theorem consult_cons_of_knows (h : link.Knows p) (after : List Introspector) :
    consult p (link :: after) = (link p, 1) := by
  simp [consult, knows_iff.mp h]

private theorem consult_cons_of_not_knows (h : ¬ link.Knows p) (after : List Introspector) :
    consult p (link :: after) = ((consult p after).1, (consult p after).2 + 1) := by
  simp [consult, not_knows_iff.mp h]

private theorem consult_append_of_not_knows (h : ∀ l ∈ before, ¬ l.Knows p)
    (rest : List Introspector) :
    consult p (before ++ rest) = ((consult p rest).1, before.length + (consult p rest).2) := by
  induction before with
  | nil => simp
  | cons l before ih =>
    obtain ⟨hl, hb⟩ := List.forall_mem_cons.mp h
    rw [List.cons_append, consult_cons_of_not_knows hl, ih hb, List.length_cons]
    simp only [Prod.mk.injEq, true_and]
    omega

/-- What comes of links is fixed: it is what the chain of them gives. -/
theorem Decides.consult_eq (h : Decides p links asked answer) :
    consult p links = (answer, asked.length) ∧ links.take asked.length = asked := by
  cases h with
  | known after hb hl =>
    rw [consult_append_of_not_knows hb, consult_cons_of_knows hl, List.length_append]
    refine ⟨rfl, ?_⟩
    rw [List.take_length_add_append]
    rfl
  | unknown hm =>
    have hc := consult_append_of_not_knows hm []
    rw [List.append_nil] at hc
    exact ⟨hc, List.take_length⟩

end Introspector

open Introspector (Decides consult Knows)

/-! ## Chains within chains -/

/-- An introspector that is no chain, or a chain of some, to any depth. -/
inductive Nest
  | link (ask : Introspector)
  | chain (parts : List Nest)

namespace Nest

mutual
/-- How a nest answers. -/
def introspector : Nest → Introspector
  | .link ask => ask
  | .chain parts => Introspector.chain (introspectors parts)

def introspectors : List Nest → List Introspector
  | [] => []
  | part :: rest => part.introspector :: introspectors rest
end

mutual
/-- The links of a nest that are no chains, from the first to the last. -/
def links : Nest → List Introspector
  | .link ask => [ask]
  | .chain parts => allLinks parts

def allLinks : List Nest → List Introspector
  | [] => []
  | part :: rest => part.links ++ allLinks rest
end

mutual
/-- Those of the links that are asked for a type. A chain asks its own parts one after the other, as
many as it needs. -/
def asked (p : SchemaPath) : Nest → List Introspector
  | .link ask => [ask]
  | .chain parts => firstAsked p parts (consult p (introspectors parts)).2

/-- The links that are asked in the first of some parts. -/
def firstAsked (p : SchemaPath) : List Nest → Nat → List Introspector
  | [], _ | _, 0 => []
  | part :: rest, n + 1 => part.asked p ++ firstAsked p rest n
end

variable (p : SchemaPath)

mutual
/-- A link decides for itself, and a chain as all links in it do in turn, except that a single link
may say that it does not know another type. -/
theorem decides : (part : Nest) →
    (part.introspector.Knows p ∧ Decides p part.links (part.asked p) (part.introspector p)) ∨
      ¬ part.introspector.Knows p ∧ (∀ l ∈ part.links, ¬ l.Knows p) ∧ part.asked p = part.links
  | .link ask => by
    by_cases h : ask.Knows p
    · exact .inl ⟨h, @Decides.known p [] ask [] (List.forall_mem_nil _) h⟩
    · exact .inr ⟨h, by simpa [links] using h, by rw [asked, links]⟩
  | .chain parts => by
    have hd := decidesAll parts
    by_cases h : (Nest.chain parts).introspector.Knows p
    · exact .inl ⟨h, by simpa only [links, asked, introspector] using hd⟩
    · refine .inr ⟨h, ?_⟩
      rw [Knows, not_forall] at h
      obtain ⟨q, hq⟩ := h
      rw [not_not, introspector] at hq
      rw [hq] at hd
      rw [links, asked]
      exact hd.of_unknown

/-- Parts that are asked in turn decide as all links in them do. -/
theorem decidesAll : (parts : List Nest) →
    Decides p (allLinks parts) (firstAsked p parts (consult p (introspectors parts)).2)
      (Introspector.chain (introspectors parts) p)
  | [] => .unknown (List.forall_mem_nil _)
  | part :: rest => by
    rw [allLinks, introspectors, Introspector.chain]
    -- the first part either ends the search or has had all its links asked in vain
    rcases decides part with ⟨hk, hd⟩ | ⟨hk, hl, ha⟩
    · rw [Introspector.consult_cons_of_knows hk, firstAsked]
      cases rest <;> simpa [firstAsked] using hd.append_right hk _
    · rw [Introspector.consult_cons_of_not_knows hk, firstAsked, ha]
      exact .append_left hl (decidesAll rest)
end

private theorem introspectors_eq (parts : List Nest) :
    introspectors parts = parts.map introspector := by
  induction parts with
  | nil => rfl
  | cons part rest ih => rw [introspectors, ih, List.map_cons]

private theorem allLinks_eq (parts : List Nest) : allLinks parts = parts.flatMap links := by
  induction parts with
  | nil => rfl
  | cons part rest ih => rw [allLinks, ih, List.flatMap_cons]

variable {p}

private theorem introspectors_map_link (ls : List Introspector) :
    introspectors (ls.map .link) = ls := by
  induction ls with
  | nil => rfl
  | cons l ls ih => rw [List.map_cons, introspectors, ih, introspector]

private theorem allLinks_map_link (ls : List Introspector) : allLinks (ls.map .link) = ls := by
  induction ls with
  | nil => rfl
  | cons l ls ih => rw [List.map_cons, allLinks, ih, links, List.singleton_append]

private theorem firstAsked_map_link (ls : List Introspector) (n : Nat) :
    firstAsked p (ls.map .link) n = ls.take n := by
  induction ls generalizing n with
  | nil => cases n <;> rfl
  | cons l ls ih =>
    cases n with
    | zero => rfl
    | succ n =>
      rw [List.map_cons, firstAsked, ih, asked, List.singleton_append, List.take_succ_cons]

end Nest

namespace Introspector

private theorem decides_iff {p : SchemaPath} {links asked : List Introspector} {answer : Answer} :
    Decides p links asked answer ↔
      links.take (consult p links).2 = asked ∧ chain links p = answer := by
  constructor
  · intro h
    obtain ⟨hc, ht⟩ := h.consult_eq
    rw [chain, hc]
    exact ⟨ht, rfl⟩
  · rintro ⟨rfl, rfl⟩
    have h := Nest.decidesAll p (links.map .link)
    rwa [Nest.allLinks_map_link, Nest.introspectors_map_link, Nest.firstAsked_map_link] at h

/-- A chain answers as the first of its links that knows the type, and asks none after it. A link
that finds the type unsupported, has no source text or cannot read a file knows it as well as one
that names a constructor. If no link knows the type, it is unknown to the chain, which has asked
them all. The same is answered and the same links are asked if some of them in a row make up a chain
of their own, to any depth. -/
theorem chain_decides (p : SchemaPath) :
    (∀ link : Introspector, link.Knows p ↔ (∃ c, link p = .ok c) ∨
      (∃ q reason, link p = .error (.unsupported q reason)) ∨
      (∃ module, link p = .error (.malformed module)) ∨
      ∃ file reason, link p = .error (.unreadable file reason)) ∧
    (∀ links asked answer, Decides p links asked answer ↔
      links.take (consult p links).2 = asked ∧ chain links p = answer) ∧
    (∀ parts, (Nest.chain parts).introspector p = chain (Nest.allLinks parts) p ∧
      (Nest.chain parts).asked p =
        (Nest.allLinks parts).take (consult p (Nest.allLinks parts)).2) ∧
    ∀ before run after,
      chain (before ++ chain run :: after) p = chain (before ++ run ++ after) p := by
  have hn (parts : List Nest) := decides_iff.mp (Nest.decidesAll p parts)
  refine ⟨fun _ => knows_iff_exists, fun _ _ _ => decides_iff, fun parts => ⟨(hn parts).2.symm, ?_⟩,
    ?_⟩
  · rw [Nest.asked]
    exact (hn parts).1.symm
  · intro before run after
    have h := (hn (before.map .link ++ .chain (run.map .link) :: after.map .link)).2
    simpa [Nest.allLinks_eq, Nest.introspectors_eq, Nest.links, Nest.introspector, List.flatMap_map,
      Function.comp_def, Nest.introspectors_map_link] using h.symm

/-- That a source has no source text is final, in a chain within a chain as well. -/
example :
    (Nest.chain [.link fun p => .error (.unknownType p),
      .chain [.chain [], .link fun _ => .error (.malformed "api")],
      .link fun _ => .ok .unit]).introspector ⟨"a"⟩ = .error (.malformed "api") := rfl

end Introspector

/-- A catalogue that does not know a type says so of that type. -/
theorem Catalogue.eq_of_unknown {c : Catalogue} {p q : SchemaPath}
    (h : c.introspector p = .error (.unknownType q)) : q = p := by
  rw [introspector] at h
  cases hd : SortedMap.get? p.text c with
  | none =>
    rw [hd] at h
    cases h
    rfl
  | some d =>
    rw [hd] at h
    cases d <;> cases h

/-- The program asks the model's own types first, and the sources only for a type that is not among
them. -/
theorem Inputs.introspector_eq (i : Inputs) (p : SchemaPath) :
    i.introspector p =
      match i.model.types.constructor? p with
      | some c => .ok c
      | none => i.sources.introspector p := by
  rw [Inputs.introspector, Introspector.chain]
  cases hc : i.model.types.constructor? p with
  | some c =>
    rw [Introspector.consult_cons_of_knows] <;> simp [Knows, TypeTable.introspector, hc]
  | none =>
    have ht : ¬ (TypeTable.introspector i.model.types).Knows p := by
      simp [Knows, TypeTable.introspector, hc]
    rw [Introspector.consult_cons_of_not_knows ht]
    by_cases hs : i.sources.introspector.Knows p
    · rw [Introspector.consult_cons_of_knows hs]
    · rw [Introspector.consult_cons_of_not_knows hs]
      simp only [Knows, not_forall, not_not] at hs
      obtain ⟨q, hq⟩ := hs
      rw [hq, Catalogue.eq_of_unknown hq]
      rfl

end Switchboard
