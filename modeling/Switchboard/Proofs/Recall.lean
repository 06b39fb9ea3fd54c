import Switchboard.Proofs.Arity
import Switchboard.Proofs.SortedMap

/-! Remembered constructors. Whatever an arity filter is called for, it answers as if it remembered
nothing, and it asks for a type no more once there was an answer. -/

namespace Switchboard

/-- The distinct types among some that have constructors. -/
def answered (ask : Introspector) (ps : List SchemaPath) : List SchemaPath :=
  (ps.filter fun p => (ask p).isOk).eraseDups

/-- What a memo is once some types were reached, in this order. Those that have constructors are
known, and each of them was asked for once. The others were asked for whenever they were reached. -/
structure ArityMemo.Recalls (ask : Introspector) (ps : List SchemaPath) (memo : ArityMemo) :
    Prop where
  known : ∀ p, SortedMap.get? p.text memo.known = if p ∈ ps then (ask p).toOption else none
  size : memo.known.length = (answered ask ps).length
  told : ∀ entry ∈ memo.asked, entry.2 = ask entry.1
  consulted : ∀ p, (memo.asked.map Prod.fst).count p =
    if (ask p).isOk then (answered ask ps).count p else ps.count p

variable {ask : Introspector}

private theorem mem_answered {ps : List SchemaPath} {p : SchemaPath} :
    p ∈ answered ask ps ↔ p ∈ ps ∧ (ask p).isOk := by
  rw [answered, List.mem_eraseDups, List.mem_filter]

private theorem answered_nodup (ask : Introspector) (ps : List SchemaPath) :
    (answered ask ps).Nodup :=
  Ownership.eraseDups_nodup _

private theorem answered_append_of_error (ps : List SchemaPath) {p : SchemaPath}
    {e : IntrospectionError}
    (he : ask p = .error e) : answered ask (ps ++ [p]) = answered ask ps := by
  simp [answered, he, Except.isOk, Except.toBool]

private theorem answered_append_of_ok (ps : List SchemaPath) {p : SchemaPath} {c : Constructor}
    (hc : ask p = .ok c) :
    answered ask (ps ++ [p]) = if p ∈ ps then answered ask ps else answered ask ps ++ [p] := by
  have hok : (ask p).isOk = true := by rw [hc]; rfl
  have hf : (ps ++ [p]).filter (fun q => (ask q).isOk) =
      ps.filter (fun q => (ask q).isOk) ++ [p] := by
    simp [hok]
  rw [answered, hf, List.eraseDups_append, List.removeAll]
  by_cases hp : p ∈ ps
  · simp [answered, hp, hok]
  · simp [answered, hp, List.eraseDups_cons]

namespace ArityMemo

theorem recalls_empty (ask : Introspector) : Recalls ask [] {} where
  known p := rfl
  size := rfl
  told entry h := absurd h List.not_mem_nil
  consulted p := by simp [answered]

variable {ps : List SchemaPath} {memo : ArityMemo}

private theorem Recalls.faithful (h : memo.Recalls ask ps) : memo.Faithful ask := by
  intro p c hp
  rw [h.known] at hp
  split at hp
  · cases ha : ask p with
    | ok d =>
      rw [ha] at hp
      cases hp
      rfl
    | error e =>
      rw [ha] at hp
      cases hp
  · cases hp

/-- A type that has no constructor is never known. -/
theorem Recalls.get?_of_error (h : memo.Recalls ask ps) {p : SchemaPath} {e : IntrospectionError}
    (he : ask p = .error e) : SortedMap.get? p.text memo.known = none := by
  rw [h.known, he]
  exact ite_self none

/-- A type that has a constructor is asked for once if it is reached. -/
theorem Recalls.count_of_ok (h : memo.Recalls ask ps) {p : SchemaPath} {c : Constructor}
    (hc : ask p = .ok c) : (memo.asked.map Prod.fst).count p = if p ∈ ps then 1 else 0 := by
  have hok : (ask p).isOk = true := by rw [hc]; rfl
  rw [h.consulted, if_pos hok, (answered_nodup ask ps).count]
  exact if_congr (mem_answered.trans (and_iff_left hok)) rfl rfl

/-- Reaching a type once more that has a constructor and was reached before changes nothing. -/
theorem Recalls.again (h : memo.Recalls ask ps) {p : SchemaPath} {c : Constructor} (hp : p ∈ ps)
    (hc : ask p = .ok c) : memo.Recalls ask (ps ++ [p]) := by
  have hs : answered ask (ps ++ [p]) = answered ask ps := by
    rw [answered_append_of_ok ps hc, if_pos hp]
  refine ⟨fun q => ?_, ?_, h.told, fun q => ?_⟩
  · have hm : q ∈ ps ++ [p] ↔ q ∈ ps := by
      rw [List.mem_append, List.mem_singleton]
      exact ⟨fun hq => hq.elim id fun he => he ▸ hp, Or.inl⟩
    rw [h.known]
    exact if_congr hm.symm rfl rfl
  · rw [hs]
    exact h.size
  · rw [h.consulted, hs]
    split
    · rfl
    · rename_i hq
      have hne : p ≠ q := by
        rintro rfl
        exact hq (by rw [hc]; rfl)
      simp [hne]

/-- Reaching a type that has no constructor leaves only a question. -/
theorem Recalls.missed (h : memo.Recalls ask ps) {p : SchemaPath} {e : IntrospectionError}
    (he : ask p = .error e) :
    Recalls ask (ps ++ [p]) ⟨memo.known, (p, .error e) :: memo.asked⟩ := by
  refine ⟨fun q => ?_, ?_, ?_, fun q => ?_⟩
  · by_cases hq : q = p
    · rw [hq, h.get?_of_error he, he]
      exact (ite_self none).symm
    · simp [h.known, hq]
  · rw [answered_append_of_error ps he]
    exact h.size
  · exact List.forall_mem_cons.mpr ⟨he.symm, h.told⟩
  · rw [List.map_cons, List.count_cons, h.consulted, answered_append_of_error ps he]
    by_cases hq : p = q
    · subst hq
      simp [he, Except.isOk, Except.toBool]
    · simp [hq]

/-- Reaching a type that has a constructor for the first time makes it known. -/
theorem Recalls.found (h : memo.Recalls ask ps) {p : SchemaPath} {c : Constructor} (hp : p ∉ ps)
    (hc : ask p = .ok c) :
    Recalls ask (ps ++ [p]) ⟨SortedMap.insert p.text c memo.known, (p, .ok c) :: memo.asked⟩ := by
  have hs : answered ask (ps ++ [p]) = answered ask ps ++ [p] := by
    rw [answered_append_of_ok ps hc, if_neg hp]
  refine ⟨fun q => ?_, ?_, ?_, fun q => ?_⟩
  · rw [SortedMap.get?_insert]
    by_cases hq : q = p
    · simp [hq, hc, Except.toOption]
    · rw [if_neg fun ht => hq (SchemaPath.text_inj.mp ht), h.known]
      simp [hq]
  · have hu : SortedMap.get? p.text memo.known = none := by rw [h.known, if_neg hp]
    rw [SortedMap.length_insert hu, hs, h.size, List.length_append]
    rfl
  · exact List.forall_mem_cons.mpr ⟨hc.symm, h.told⟩
  · rw [List.map_cons, List.count_cons, h.consulted, hs]
    by_cases hq : p = q
    · subst hq
      simp [hc, Except.isOk, Except.toBool]
    · simp [hq]

end ArityMemo

namespace ArityFilter

variable {ps : List SchemaPath} {memo : ArityMemo}

private theorem constructor_recalls (h : memo.Recalls ask ps) (p : SchemaPath) :
    (constructor ask p memo).1.Recalls ask (ps ++ [p]) := by
  simp only [constructor]
  cases hk : SortedMap.get? p.text memo.known with
  | some c =>
    have hp : p ∈ ps := by
      rw [h.known] at hk
      by_contra hn
      rw [if_neg hn] at hk
      cases hk
    exact h.again hp (h.faithful p c hk)
  | none =>
    cases ha : ask p with
    | error e => exact h.missed ha
    | ok c =>
      have hp : p ∉ ps := by
        intro hp
        rw [h.known, if_pos hp, ha] at hk
        cases hk
      exact h.found hp ha

/-- The types that are reached one after the other, up to the first without a constructor. -/
def reached (ask : Introspector) : List SchemaPath → List SchemaPath
  | [] => []
  | p :: rest =>
    match ask p with
    | .ok _ => p :: reached ask rest
    | .error _ => [p]

/-- Why the first type without a constructor has none. -/
def firstError? (ask : Introspector) (ps : List SchemaPath) : Option IntrospectionError :=
  ps.findSome? fun p =>
    match ask p with
    | .ok _ => none
    | .error e => some e

theorem reached_of_error {before : List SchemaPath} (after : List SchemaPath) {p : SchemaPath}
    {e : IntrospectionError} (hok : ∀ q ∈ before, ∃ c, ask q = .ok c) (he : ask p = .error e) :
    reached ask (before ++ p :: after) = before ++ [p] := by
  induction before with
  | nil => simp [reached, he]
  | cons q rest ih =>
    obtain ⟨⟨c, hc⟩, hrest⟩ := List.forall_mem_cons.mp hok
    simp [reached, hc, ih hrest]

theorem reached_of_ok {ps : List SchemaPath} (hok : ∀ q ∈ ps, ∃ c, ask q = .ok c) :
    reached ask ps = ps := by
  induction ps with
  | nil => rfl
  | cons q rest ih =>
    obtain ⟨⟨c, hc⟩, hrest⟩ := List.forall_mem_cons.mp hok
    simp [reached, hc, ih hrest]

private theorem firstError?_of_error {before : List SchemaPath} (after : List SchemaPath)
    {p : SchemaPath}
    {e : IntrospectionError} (hok : ∀ q ∈ before, ∃ c, ask q = .ok c) (he : ask p = .error e) :
    firstError? ask (before ++ p :: after) = some e := by
  rw [firstError?, List.findSome?_append, List.findSome?_eq_none_iff.mpr, List.findSome?_cons, he]
  · rfl
  · intro q hq
    obtain ⟨c, hc⟩ := hok q hq
    rw [hc]

private theorem visit_answer (h : memo.Faithful ask) (qs : List SchemaPath) :
    (visit ask qs memo).2 =
      match firstError? ask qs with
      | some e => .error e
      | none => .ok () := by
  induction qs generalizing memo with
  | nil => rfl
  | cons p rest ih =>
    have ha := constructor_answer h p
    have hf := constructor_faithful h p
    rw [visit, firstError?, List.findSome?_cons]
    cases hr : constructor ask p memo with
    | mk memo' answer =>
      rw [hr] at ha hf
      cases answer with
      | error e => simp [← ha]
      | ok c =>
        simp only [← ha]
        exact ih hf

theorem visit_recalls (h : memo.Recalls ask ps) (qs : List SchemaPath) :
    (visit ask qs memo).1.Recalls ask (ps ++ reached ask qs) := by
  induction qs generalizing ps memo with
  | nil => simpa [visit, reached] using h
  | cons p rest ih =>
    have ha := constructor_answer h.faithful p
    have hc := constructor_recalls h p
    rw [visit, reached]
    cases hr : constructor ask p memo with
    | mk memo' answer =>
      rw [hr] at ha hc
      cases answer with
      | error e => simpa [← ha] using hc
      | ok c =>
        have := ih hc
        simpa [← ha] using this

/-! Calls -/

/-- A call of an arity filter. -/
inductive Call
  | constructor (p : SchemaPath)
  | hasFields (p : SchemaPath)
  | file (index : Nat) (g : Group) (owned : List SchemaPath)

/-- What a call is answered with. -/
inductive Reply
  | constructor (answer : Answer)
  | hasFields (answer : Except IntrospectionError Bool)
  | file (answer : Except IntrospectionError ConverterFile)

namespace Call

def run (ask : Introspector) : Call → ArityMemo → ArityMemo × Reply
  | .constructor p, memo =>
    match ArityFilter.constructor ask p memo with
    | (memo, answer) => (memo, .constructor answer)
  | .hasFields p, memo =>
    match ArityFilter.hasFields ask p memo with
    | (memo, answer) => (memo, .hasFields answer)
  | .file index g owned, memo =>
    match ArityFilter.file ask index g owned memo with
    | (memo, answer) => (memo, .file answer)

/-- What a call is answered with where nothing is remembered. -/
def plain (ask : Introspector) : Call → Reply
  | .constructor p => .constructor (ask p)
  | .hasFields p => .hasFields ((ask p).map Constructor.hasFields)
  | .file index g owned =>
    .file <| match firstError? ask owned.eraseDups with
      | some e => .error e
      | none => .ok (fileOf ask index g owned)

/-- The types that a call reaches. -/
def reached (ask : Introspector) : Call → List SchemaPath
  | .constructor p => [p]
  | .hasFields p => [p]
  | .file _ _ owned => ArityFilter.reached ask owned.eraseDups

end Call

/-- Calls one after the other, with what they are answered with. -/
def runAll (ask : Introspector) : List Call → ArityMemo → ArityMemo × List Reply
  | [], memo => (memo, [])
  | call :: rest, memo =>
    match call.run ask memo with
    | (memo, reply) =>
      match runAll ask rest memo with
      | (memo, replies) => (memo, reply :: replies)

private theorem hasFields_eq (p : SchemaPath) :
    hasFields ask p memo =
      ((constructor ask p memo).1, (constructor ask p memo).2.map Constructor.hasFields) := by
  rw [hasFields]
  cases constructor ask p memo with
  | mk memo' answer => cases answer <;> rfl

/-- Making a converter file is visiting its types in order, each once. -/
theorem file_eq (h : memo.Faithful ask) (index : Nat) (g : Group) (owned : List SchemaPath) :
    file ask index g owned memo =
      match visit ask owned.eraseDups memo with
      | (memo, .error e) => (memo, .error e)
      | (memo, .ok _) => (memo, .ok (fileOf ask index g owned)) := by
  have hp := part_eq h [] owned
  simp only [List.contains_nil, Bool.not_false, List.filter_true] at hp
  rw [file, hp]
  cases visit ask owned.eraseDups memo with
  | mk memo' result => cases result <;> rfl

/-- One call: it is answered as if nothing were remembered, and the types that it reaches are the
next. -/
theorem run_recalls (h : memo.Recalls ask ps) (call : Call) :
    (call.run ask memo).2 = call.plain ask ∧
      (call.run ask memo).1.Recalls ask (ps ++ call.reached ask) := by
  cases call with
  | constructor p =>
    exact ⟨congrArg Reply.constructor (constructor_answer h.faithful p), constructor_recalls h p⟩
  | hasFields p =>
    simp only [Call.run, Call.plain, hasFields_eq, constructor_answer h.faithful p]
    exact ⟨trivial, constructor_recalls h p⟩
  | file index g owned =>
    have ha := visit_answer h.faithful owned.eraseDups
    have hv := visit_recalls h owned.eraseDups
    simp only [Call.run, Call.plain, Call.reached, file_eq h.faithful]
    cases hr : visit ask owned.eraseDups memo with
    | mk memo' result =>
      rw [hr] at ha hv
      simp only at ha
      subst ha
      cases he : firstError? ask owned.eraseDups <;> exact ⟨rfl, hv⟩

/-- Calls one after the other. -/
theorem runAll_recalls (h : memo.Recalls ask ps) (calls : List Call) :
    (runAll ask calls memo).2 = calls.map (Call.plain ask) ∧
      (runAll ask calls memo).1.Recalls ask (ps ++ calls.flatMap (Call.reached ask)) := by
  induction calls generalizing ps memo with
  | nil => exact ⟨rfl, by simpa [runAll] using h⟩
  | cons call rest ih =>
    obtain ⟨hreply, hstep⟩ := run_recalls h call
    obtain ⟨hreplies, hrest⟩ := ih hstep
    rw [List.flatMap_cons, ← List.append_assoc]
    exact ⟨by rw [runAll, List.map_cons, ← hreply, ← hreplies], hrest⟩

/-- Making a converter file in vain makes known the types before the one without a constructor, and
no others. -/
theorem known_file_of_error (h : memo.Recalls ask ps) (index : Nat) (g : Group)
    {owned before after : List SchemaPath} {p : SchemaPath} {e : IntrospectionError}
    (hs : owned.eraseDups = before ++ p :: after) (hok : ∀ q ∈ before, ∃ c, ask q = .ok c)
    (he : ask p = .error e) (q : SchemaPath) :
    SortedMap.get? q.text (file ask index g owned memo).1.known =
      if q ∈ before then (ask q).toOption else SortedMap.get? q.text memo.known := by
  have hr : (file ask index g owned memo).1.Recalls ask (ps ++ (before ++ [p])) := by
    have := (run_recalls h (.file index g owned)).2
    rwa [Call.reached, hs, reached_of_error after hok he] at this
  rw [hr.known, h.known]
  by_cases hb : q ∈ before
  · simp [hb]
  · by_cases hq : q = p
    · simp [hq, he, Except.toOption]
    · simp [hb, hq]

/-- What is remembered shows in nothing but in who is asked. Calls in any order, failing ones among
them, are answered as if nothing were remembered. A type that has a constructor is asked for once,
when it is reached first, and the others are never known. Making a converter file in vain makes
known the types before the one without a constructor, and no others. As many types are known as
there are distinct ones that were reached and have constructors. -/
theorem memo_transparent (ask : Introspector) (calls : List Call) :
    let reached := calls.flatMap (Call.reached ask)
    let memo := (runAll ask calls {}).1
    (runAll ask calls {}).2 = calls.map (Call.plain ask) ∧
    (∀ entry ∈ memo.asked, entry.2 = ask entry.1) ∧
    (∀ p c, ask p = .ok c → (memo.asked.map Prod.fst).count p = if p ∈ reached then 1 else 0) ∧
    (∀ p e, ask p = .error e → SortedMap.get? p.text memo.known = none) ∧
    (∀ index g owned before p after e, owned.eraseDups = before ++ p :: after →
      (∀ q ∈ before, ∃ c, ask q = .ok c) → ask p = .error e →
      (file ask index g owned memo).2 = .error e ∧
        ∀ q, SortedMap.get? q.text (file ask index g owned memo).1.known =
          if q ∈ before then (ask q).toOption else SortedMap.get? q.text memo.known) ∧
    memo.known.length = (reached.filter fun p => (ask p).isOk).eraseDups.length := by
  obtain ⟨hreplies, hr⟩ := runAll_recalls (ArityMemo.recalls_empty ask) calls
  rw [List.nil_append] at hr
  refine ⟨hreplies, hr.told, fun p c hc => hr.count_of_ok hc, fun p e he => hr.get?_of_error he,
    fun index g owned before p after e hs hok he => ⟨?_, known_file_of_error hr index g hs hok he⟩,
    hr.size⟩
  have ha := (run_recalls hr (.file index g owned)).1
  rw [Call.plain, hs, firstError?_of_error after hok he] at ha
  exact Reply.file.inj ha

end ArityFilter

end Switchboard
