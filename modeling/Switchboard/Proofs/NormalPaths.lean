import Mathlib.Data.List.Infix
import Switchboard.Proofs.ModelText

/-! Normal paths: texts that name a path as they stand. White space is taken from the ends of a text
before the two colons in front, and each only once. What is behind the colons may be white space or
two colons again, and then the path that is made is not normal. -/

namespace Switchboard

namespace Text

variable {cs : List Char}

private theorem trimChars_initial (cs : List Char) : trimChars cs <+: cs.dropWhile isBlank := by
  have h := List.reverse_prefix.mpr
    (List.dropWhile_suffix isBlank (l := (cs.dropWhile isBlank).reverse))
  rwa [List.reverse_reverse] at h

private theorem trimChars_isInfix (cs : List Char) : trimChars cs <:+: cs :=
  (trimChars_initial cs).isInfix.trans (List.dropWhile_suffix isBlank).isInfix

/-- Nothing blank begins a text after trimming. -/
theorem not_isBlank_head_trimChars {c : Char} (h : (trimChars cs).head? = some c) :
    isBlank c = false := by
  obtain ⟨rest, hr⟩ := trimChars_initial cs
  have hc : (cs.dropWhile isBlank).head? = some c := by rw [← hr, List.head?_append, h, Option.some_or]
  simpa [hc] using List.head?_dropWhile_not isBlank cs

/-- Nothing blank ends a text after trimming. -/
theorem not_isBlank_getLast_trimChars {c : Char} (h : (trimChars cs).getLast? = some c) :
    isBlank c = false := by
  rw [trimChars, List.getLast?_reverse] at h
  simpa [h] using List.head?_dropWhile_not isBlank (cs.dropWhile isBlank).reverse

/-- Trimming changes nothing just if neither end is blank. -/
theorem trimChars_eq_self_iff : trimChars cs = cs ↔
    (∀ c, cs.head? = some c → isBlank c = false) ∧
      ∀ c, cs.getLast? = some c → isBlank c = false := by
  constructor
  · intro h
    have hfront : cs.dropWhile isBlank = cs := by
      refine (List.dropWhile_suffix isBlank).eq_of_length_le ?_
      calc cs.length = (trimChars cs).length := by rw [h]
        _ ≤ (cs.dropWhile isBlank).length := (trimChars_initial cs).length_le
    refine ⟨fun c hc => ?_, fun c hc => not_isBlank_getLast_trimChars (h.symm ▸ hc)⟩
    rw [← hfront] at hc
    simpa [hc] using List.head?_dropWhile_not isBlank cs
  · rintro ⟨hfront, hback⟩
    have hd (ds : List Char) (h : ∀ c, ds.head? = some c → isBlank c = false) :
        ds.dropWhile isBlank = ds := by
      cases ds with
      | nil => rfl
      | cons d ds => exact List.dropWhile_cons_of_neg (by simp [h d rfl])
    rw [trimChars, hd cs hfront, hd cs.reverse fun c hc => hback c (List.head?_reverse ▸ hc),
      List.reverse_reverse]

end Text

namespace SchemaPath

open Text

variable {cs : List Char} {p : SchemaPath}

private theorem dropRoot_isSuffix (cs : List Char) : dropRoot cs <:+ cs := by
  unfold dropRoot
  split
  · exact ⟨[':', ':'], rfl⟩
  · exact List.suffix_refl cs

theorem dropRoot_eq_self_iff : dropRoot cs = cs ↔ ¬ [':', ':'] <+: cs := by
  unfold dropRoot
  split
  · rename_i rest
    constructor
    · intro h
      have := congrArg List.length h
      simp only [List.length_cons] at this
      omega
    · exact fun h => absurd (List.prefix_append [':', ':'] rest) h
  · rename_i hn
    refine ⟨fun _ hp => ?_, fun _ => rfl⟩
    obtain ⟨rest, rfl⟩ := hp
    exact hn rest rfl

/-- Characters that begin neither with white space nor with two colons. -/
def LedByName (cs : List Char) : Prop :=
  (∀ c, cs.head? = some c → isBlank c = false) ∧ ¬ [':', ':'] <+: cs

/-- A path whose text has no white space at its ends and no two colons in front. -/
structure IsNormal (p : SchemaPath) : Prop where
  led : LedByName p.text.toList
  ended : ∀ c, p.text.toList.getLast? = some c → isBlank c = false

private theorem normal_eq_self_iff : normal cs = cs ↔ trimChars cs = cs ∧ dropRoot cs = cs := by
  refine ⟨fun h => ?_, fun ⟨ht, hr⟩ => by rw [normal, ht, hr]⟩
  -- what is left has the length of the whole, so neither step takes anything
  have hl := (dropRoot_isSuffix (trimChars cs)).length_le
  rw [show dropRoot (trimChars cs) = cs from h] at hl
  have ht : trimChars cs = cs := (trimChars_isInfix cs).eq_of_length_le hl
  exact ⟨ht, by rwa [normal, ht] at h⟩

/-- The text of a path names the path itself just if the path is normal. -/
theorem of_text_iff : of p.text = p ↔ p.IsNormal := by
  rw [← text_inj, ← String.toList_inj, of, String.toList_ofList, normal_eq_self_iff,
    trimChars_eq_self_iff, dropRoot_eq_self_iff]
  exact ⟨fun h => ⟨⟨h.1.1, h.2⟩, h.1.2⟩, fun h => ⟨⟨h.led.1, h.ended⟩, h.led.2⟩⟩

/-- No white space ends a path that is made from a text. -/
theorem ended_of (s : String) (c : Char) (h : (of s).text.toList.getLast? = some c) :
    isBlank c = false := by
  rw [of, String.toList_ofList] at h
  obtain ⟨front, hf⟩ := dropRoot_isSuffix (trimChars s.toList)
  have ht : (trimChars s.toList).getLast? = some c → isBlank c = false :=
    not_isBlank_getLast_trimChars
  refine ht ?_
  rw [← hf, List.getLast?_append, show dropRoot _ = normal s.toList from rfl, h, Option.some_or]

/-- A path that is made from a text is normal just if what stands behind the two colons in front of
the text, if they are there, begins neither with white space nor with two colons again. -/
theorem isNormal_of_iff (s : String) : (of s).IsNormal ↔
    ∀ rest, trimChars s.toList = ':' :: ':' :: rest → LedByName rest := by
  have hn : (of s).IsNormal ↔ LedByName (normal s.toList) := by
    rw [← String.toList_ofList (l := normal s.toList)]
    exact ⟨IsNormal.led, fun h => ⟨h, ended_of s⟩⟩
  rw [hn, normal]
  by_cases hroot : [':', ':'] <+: trimChars s.toList
  · obtain ⟨rest, hr⟩ := hroot
    rw [← hr]
    refine ⟨fun h later he => ?_, fun h => h rest rfl⟩
    obtain rfl : rest = later := by simpa using he
    exact h
  · rw [dropRoot_eq_self_iff.mpr hroot]
    refine ⟨fun _ rest hr => absurd ⟨rest, hr.symm⟩ hroot, fun _ => ⟨?_, hroot⟩⟩
    exact fun c => not_isBlank_head_trimChars

private theorem reads_text_iff :
    Json.Reader.Reads Group.pathReader (.string p.text) p ↔ p.IsNormal := by
  have hr : Json.Reader.Reads Group.pathReader (.string p.text) (of p.text) := fun _ => rfl
  rw [← of_text_iff]
  constructor
  · intro h
    have he := (hr .text).symm.trans (h .text)
    simpa only [Except.ok.injEq] using he
  · intro h
    rwa [h] at hr

/-- A path is made again from its own text, or read back from it, just if it is normal. White space
at the end never keeps it from that; white space or two colons behind the colons that are taken from
the front do. -/
theorem of_text_of_iff (s : String) :
    (of (of s).text = of s ↔ (of s).IsNormal) ∧
      (Json.Reader.Reads Group.pathReader (.string (of s).text) (of s) ↔ (of s).IsNormal) ∧
      ((of s).IsNormal ↔ ∀ rest, trimChars s.toList = ':' :: ':' :: rest → LedByName rest) ∧
      ∀ c, (of s).text.toList.getLast? = some c → isBlank c = false :=
  ⟨of_text_iff, reads_text_iff, isNormal_of_iff s, ended_of s⟩

/-- A text whose path is not the path of its own text: a blank stands behind the two colons. -/
theorem of_text_of_gap : (of ":: a").text = " a" ∧ (of (of ":: a").text).text = "a" ∧
    of (of ":: a").text ≠ of ":: a" := by
  decide +kernel

end SchemaPath

end Switchboard
