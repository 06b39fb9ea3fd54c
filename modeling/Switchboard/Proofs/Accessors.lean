import Mathlib.Data.List.Find
import Switchboard.Emission.Dispatcher
import Switchboard.Proofs.Identifiers
import Switchboard.Proofs.Planning
import Switchboard.Proofs.Traversal
import Switchboard.Proofs.Validation

/-! Accessors. The names that a plan was accepted with can all stand in source text, but the name of
the method that hands out a converter is made from one of them and may not. -/

namespace Switchboard

open Source (Word)

namespace Emission

theorem word_eq_ok_iff (what text : String) (w : Word) :
    word what text = .ok w ↔ Source.identifier? text = some w := by
  unfold word
  split <;> rename_i h <;> simp [h]

private theorem word_of_none {what text : String} (h : Source.identifier? text = none) :
    word what text = .error (.unfit what text) := by
  simp [word, h]

theorem path_eq_ok_iff (what text : String) (ts : List Source.Token) :
    path what text = .ok ts ↔ Source.path? text = some ts := by
  unfold path
  split <;> rename_i h <;> simp [h]

/-- What the dispatcher has for a group is made of the four names, each of them an identifier. -/
theorem accessor_eq_ok_iff {g : Group} {a : Accessor} :
    accessor g = .ok a ↔ a.group = g.name ∧
      Source.identifier? g.accessorName = some a.field ∧
      Source.identifier? (Naming.accessorMethod g.accessorName) = some a.method ∧
      Source.identifier? g.moduleName = some a.module ∧
      Source.identifier? g.converterName = some a.converter := by
  obtain ⟨group, field, method, module, converter⟩ := a
  rw [← word_eq_ok_iff "accessor" g.accessorName, ← word_eq_ok_iff "accessor method",
    ← word_eq_ok_iff "module" g.moduleName, ← word_eq_ok_iff "mapper type" g.converterName]
  unfold accessor
  cases word "accessor" g.accessorName <;>
    cases word "accessor method" (Naming.accessorMethod g.accessorName) <;>
    cases word "module" g.moduleName <;> cases word "mapper type" g.converterName <;>
    simp [bind, Except.bind, pure, Except.pure, eq_comm]

end Emission

namespace Group

/-- Whether the text of the group's accessor begins with its name: nothing stands before it, and it
is not made raw. -/
def hasBareAccessor (g : Group) : Bool := Source.Lexer.beginsName g.accessorName.toList

/-- Of a group that nothing is wrong with only the method for the accessor may have no name. -/
theorem accessor_of_complaints {g : Group} (h : g.complaints = []) :
    (g.hasBareAccessor = true ∧ ∃ a, Emission.accessor g = .ok a) ∨
      (g.hasBareAccessor = false ∧ Emission.accessor g =
        .error (.unfit "accessor method" (Naming.accessorMethod g.accessorName))) := by
  obtain ⟨⟨field, hf⟩, ⟨module, hm⟩, ⟨converter, hc⟩⟩ := exists_identifiers h
  have hi := Source.identifier?_accessorMethod hf
  rw [← hasBareAccessor] at hi
  cases hb : g.hasBareAccessor with
  | true =>
    rw [if_pos hb] at hi
    exact .inl ⟨rfl, ⟨g.name, field, _, module, converter⟩,
      Emission.accessor_eq_ok_iff.mpr ⟨rfl, hf, hi, hm, hc⟩⟩
  | false =>
    rw [if_neg (by simp [hb])] at hi
    refine .inr ⟨rfl, ?_⟩
    rw [Emission.accessor, (Emission.word_eq_ok_iff _ _ _).mpr hf, Emission.word_of_none hi]
    rfl

end Group

namespace Plan

variable {m : Model} {ask : Introspector} {c : Config} {p : Plan}

/-- A plan is made only with settings and a model that nothing is wrong with. -/
theorem accepted_of_make (h : (make m ask c).2 = .ok p) : c.fault? = none ∧ m.isValid = true := by
  change (planning m ask c).outcome = .ok p at h
  cases hf : c.fault? with
  | some fault => simp [planning_of_fault hf] at h
  | none =>
    cases hv : m.isValid with
    | false => simp [planning_of_invalid hf hv] at h
    | true => exact ⟨rfl, rfl⟩

theorem groups_of_make (h : (make m ask c).2 = .ok p) : p.groups = m.groups := by
  obtain ⟨_, tables, _, rfl⟩ := make_eq_ok h
  rfl

private theorem settings_of_make (h : (make m ask c).2 = .ok p) :
    (∃ w, Source.identifier? c.dispatcher = some w) ∧
      ∃ ts, Source.path? c.mount = some ts := by
  have hf := (accepted_of_make h).1
  unfold Config.fault? at hf
  split at hf
  · cases hf
  · rename_i hp
    exact ⟨Naming.exists_identifier_of_fault (Option.map_eq_none_iff.mp hf),
      Naming.exists_path_of_fault hp⟩

end Plan

namespace Emission

/-- A dispatcher is emitted just if its name, its namespace and all accessors can be. -/
theorem dispatcher_eq_ok_iff {p : Plan} {c : Config} {ts : List Source.Token} :
    dispatcher p c = .ok ts ↔ ∃ type mount accessors,
      Source.identifier? c.dispatcher = some type ∧ Source.path? c.mount = some mount ∧
      List.Forall₂ (fun g a => accessor g = .ok a) p.groups accessors ∧
      ts = dispatcherType type mount accessors (routeArms accessors p.tables.decode)
        (routeArms accessors p.tables.encode) := by
  simp only [← word_eq_ok_iff "dispatcher type", ← path_eq_ok_iff "namespace",
    ← Traversal.mapM_eq_ok_iff]
  unfold dispatcher
  cases word "dispatcher type" c.dispatcher <;> cases path "namespace" c.mount <;>
    cases p.groups.mapM accessor <;>
    simp [bind, Except.bind, pure, Except.pure, eq_comm]

section

variable {m : Model} {ask : Introspector} {c : Config} {p : Plan}

/-- The dispatcher of a plan is made of what it has for the groups, if it has that. -/
theorem dispatcher_eq_map (h : (Plan.make m ask c).2 = .ok p) :
    ∃ build, dispatcher p c = (m.groups.mapM accessor).map build := by
  obtain ⟨⟨type, ht⟩, ⟨mount, hm⟩⟩ := Plan.settings_of_make h
  refine ⟨fun accessors => dispatcherType type mount accessors
    (routeArms accessors p.tables.decode) (routeArms accessors p.tables.encode), ?_⟩
  rw [dispatcher, (word_eq_ok_iff _ _ _).mpr ht, (path_eq_ok_iff _ _ _).mpr hm,
    Plan.groups_of_make h]
  rfl

private theorem dispatcher_eq_error_iff (h : (Plan.make m ask c).2 = .ok p) (e : EmissionError) :
    dispatcher p c = .error e ↔ ∃ g, m.groups.find? (fun g => !g.hasBareAccessor) = some g ∧
      e = .unfit "accessor method" (Naming.accessorMethod g.accessorName) := by
  have hg := ((Model.isValid_iff m).mp (Plan.accepted_of_make h).2).1
  have hok (g : Group) (hm : g ∈ m.groups) : (accessor g).isOk = g.hasBareAccessor := by
    rcases Group.accessor_of_complaints (hg g hm) with ⟨hb, a, ha⟩ | ⟨hb, ha⟩ <;> rw [hb, ha] <;> rfl
  have hmap : dispatcher p c = .error e ↔ m.groups.mapM accessor = .error e := by
    obtain ⟨build, hd⟩ := dispatcher_eq_map h
    rw [hd]
    cases m.groups.mapM accessor <;> simp [Except.map]
  rw [hmap, Traversal.mapM_eq_error_iff, List.find?_congr fun g hm => congrArg _ (hok g hm)]
  refine exists_congr fun g => and_congr_right fun hf => ?_
  have hn : g.hasBareAccessor = false := by simpa using List.find?_some hf
  rcases Group.accessor_of_complaints (hg g (List.mem_of_find?_eq_some hf)) with ⟨hb, _⟩ | ⟨_, ha⟩
  · rw [hn] at hb
    cases hb
  · rw [ha, Except.error.injEq, eq_comm]

theorem exists_dispatcher_eq_ok (h : (Plan.make m ask c).2 = .ok p)
    (hall : ∀ g ∈ m.groups, g.hasBareAccessor = true) : ∃ ts, dispatcher p c = .ok ts := by
  cases ho : dispatcher p c with
  | ok ts => exact ⟨ts, rfl⟩
  | error e =>
    obtain ⟨g, hg, _⟩ := (dispatcher_eq_error_iff h e).mp ho
    have hn := List.find?_some hg
    simp [hall g (List.mem_of_find?_eq_some hg)] at hn

private theorem hasBareAccessor_of_dispatcher (h : (Plan.make m ask c).2 = .ok p)
    {ts : List Source.Token}
    (hts : dispatcher p c = .ok ts) : ∀ g ∈ m.groups, g.hasBareAccessor = true := by
  have hnone : m.groups.find? (fun g => !g.hasBareAccessor) = none := by
    cases hf : m.groups.find? (fun g => !g.hasBareAccessor) with
    | none => rfl
    | some g =>
      rw [(dispatcher_eq_error_iff h _).mpr ⟨g, hf, rfl⟩] at hts
      cases hts
  simpa using hnone

/-- The dispatcher of a plan can be emitted just if the text of every accessor begins with its name.
Of all names only that of a method can keep it from being emitted, and the first such is told. -/
theorem dispatcher_of_make (h : (Plan.make m ask c).2 = .ok p) :
    ((∃ ts, dispatcher p c = .ok ts) ↔ ∀ g ∈ m.groups, g.hasBareAccessor = true) ∧
      ∀ e, dispatcher p c = .error e ↔
        ∃ g, m.groups.find? (fun g => !g.hasBareAccessor) = some g ∧
          e = .unfit "accessor method" (Naming.accessorMethod g.accessorName) :=
  ⟨⟨fun ⟨_, hts⟩ => hasBareAccessor_of_dispatcher h hts, exists_dispatcher_eq_ok h⟩,
    dispatcher_eq_error_iff h⟩

end

/-- A model with a blank before the name of an accessor. -/
def spaced : Model where
  groups := [⟨"owners", none, []⟩, ⟨"pets", some " pets", []⟩]

private theorem exists_make_spaced :
    ∃ p, (Plan.make spaced spaced.types.introspector {}).2 = .ok p :=
  Plan.exists_make_eq_ok (by decide +kernel) (by decide +kernel) (by decide +kernel)

theorem dispatcher_of_make_spaced :
    ∃ p, (Plan.make spaced spaced.types.introspector {}).2 = .ok p ∧
      dispatcher p {} = .error (.unfit "accessor method" "mapper_ pets") := by
  obtain ⟨p, hp⟩ := exists_make_spaced
  exact ⟨p, hp, ((dispatcher_of_make hp).2 _).mpr
    ⟨⟨"pets", some " pets", []⟩, by decide +kernel, by decide +kernel⟩⟩

/-- A plan without a dispatcher. -/
theorem dispatcher_refused :
    ∃ p, (Plan.make spaced spaced.types.introspector {}).2 = .ok p ∧
      ∀ ts, dispatcher p {} ≠ .ok ts := by
  obtain ⟨p, hp⟩ := exists_make_spaced
  obtain ⟨build, hd⟩ := dispatcher_eq_map hp
  have hf : (spaced.groups.mapM accessor).isOk = false := by decide +kernel
  refine ⟨p, hp, fun ts hts => ?_⟩
  rw [hd] at hts
  cases hm : spaced.groups.mapM accessor with
  | ok accessors =>
    rw [hm] at hf
    cases hf
  | error e =>
    rw [hm] at hts
    cases hts

end Emission

end Switchboard
