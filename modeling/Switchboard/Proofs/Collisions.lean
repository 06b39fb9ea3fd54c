import Switchboard.Generation
import Switchboard.Proofs.DispatcherText

/-! Collisions. Groups are told apart by the texts of their accessors, and in the dispatcher by the
names that these texts begin with. -/

namespace Switchboard

open Source (Word)

/-- The name that the text of a group's accessor begins with. -/
def Group.leadingName (g : Group) : String :=
  String.ofList (g.accessorName.toList.takeWhile Text.Identifier.isContinue)

namespace Emission

/-- The field and the method for an accessor are named by the name that its text begins with. -/
theorem names_of_accessor {g : Group} {a : Accessor} (h : accessor g = .ok a) :
    a.field = .plain g.leadingName ∧ a.method = .plain (Naming.accessorMethod g.leadingName) := by
  obtain ⟨_, hf, hm, _⟩ := accessor_eq_ok_iff.mp h
  rw [Source.identifier?_accessorMethod hf] at hm
  split at hm
  · rename_i hb
    have hw := (Source.identifier?_of_beginsName hf hb).1
    refine ⟨hw, ?_⟩
    rw [← Option.some.inj hm, hw]
    rfl
  · cases hm

private theorem accessorMethod_inj {a b : String} :
    Naming.accessorMethod a = Naming.accessorMethod b ↔ a = b := by
  constructor
  · intro h
    have hl := congrArg String.toList h
    simpa [Naming.accessorMethod, String.toList_inj] using hl
  · exact fun h => h ▸ rfl

end Emission

namespace Generation

open Emission

variable {emit : Emitter} {m : Model} {ask : Introspector} {c : Config} {s : FileSet}

/-- The files of a model are those that a plan of it makes. -/
theorem exists_plan_of_run (h : run emit m ask c = .ok s) :
    ∃ p ts, (Plan.make m ask c).2 = .ok p ∧ p.files.mapM (converterFile emit) = .ok s.converters ∧
      dispatcher p c = .ok ts ∧ s.dispatcher = .of dispatcherPath none ts := by
  unfold run at h
  split at h
  · cases h
  · rename_i p hp
    split at h
    · cases h
    · rename_i set hset
      cases h
      unfold ofPlan at hset
      simp only [Traversal.bind_eq_ok_iff, Traversal.pure_eq_ok_iff] at hset
      obtain ⟨converters, hconverters, ts, hts, rfl⟩ := hset
      exact ⟨p, ts, hp, hconverters, hts, rfl⟩

/-- The files of a model are made from a plan of it, with the dispatcher of the plan. -/
theorem exists_dispatcher_of_run (h : run emit m ask c = .ok s) :
    ∃ p ts, (Plan.make m ask c).2 = .ok p ∧ dispatcher p c = .ok ts ∧
      s.dispatcher = .of dispatcherPath none ts := by
  obtain ⟨p, ts, hp, -, hts, hs⟩ := exists_plan_of_run h
  exact ⟨p, ts, hp, hts, hs⟩

/-- The names of the slots and of the methods, as they are read in the text of the dispatcher. -/
theorem names_of_run (h : run emit m ask c = .ok s) :
    ∃ ts d, s.dispatcher = .of dispatcherPath none ts ∧ DispatcherText.of? ts = some d ∧
      d.slots.map Prod.fst = m.groups.map (fun g => .plain g.leadingName) ∧
      d.methods.map Source.Outline.Function.name =
        m.groups.map fun g => .plain (Naming.accessorMethod g.leadingName) := by
  obtain ⟨p, ts, hp, hts, hs⟩ := exists_dispatcher_of_run h
  obtain ⟨type, mount, accessors, _, _, ha, hd⟩ := of?_dispatcher hp hts
  have hfields : accessors.map Accessor.field = m.groups.map fun g => .plain g.leadingName :=
    Traversal.map_eq_map ha fun g a hok => (names_of_accessor hok).1
  have hmethods : accessors.map Accessor.method =
      m.groups.map fun g => .plain (Naming.accessorMethod g.leadingName) :=
    Traversal.map_eq_map ha fun g a hok => (names_of_accessor hok).2
  refine ⟨ts, _, hs, hd, ?_, ?_⟩
  · rw [← hfields, DispatcherText.made, List.map_map]
    rfl
  · rw [← hmethods, DispatcherText.made, List.map_map]
    rfl

private theorem plain_inj {a b : String} : Word.plain a = Word.plain b ↔ a = b := by
  simp [Word.plain]

/-- The slots of a dispatcher are named alike just if the methods are, and just if the accessors of
two groups begin with one name. So they are distinct if every accessor is a name and nothing more. -/
theorem names_distinct_iff (h : run emit m ask c = .ok s) :
    ∃ ts d, s.dispatcher = .of dispatcherPath none ts ∧ DispatcherText.of? ts = some d ∧
      d.slots.map Prod.fst = m.groups.map (fun g => .plain g.leadingName) ∧
      d.methods.map Source.Outline.Function.name =
        m.groups.map (fun g => .plain (Naming.accessorMethod g.leadingName)) ∧
      ((d.slots.map Prod.fst).Nodup ↔ (m.groups.map Group.leadingName).Nodup) ∧
      ((d.methods.map Source.Outline.Function.name).Nodup ↔
        (m.groups.map Group.leadingName).Nodup) ∧
      ((∀ g ∈ m.groups, g.leadingName = g.accessorName) →
        (m.groups.map Group.leadingName).Nodup) := by
  obtain ⟨p, _, hp, _⟩ := exists_dispatcher_of_run h
  obtain ⟨ts, d, hs, hd, hslots, hmethods⟩ := names_of_run h
  refine ⟨ts, d, hs, hd, hslots, hmethods, ?_, ?_, fun hall => ?_⟩
  · have hmap : (m.groups.map fun g => Word.plain g.leadingName) =
        (m.groups.map Group.leadingName).map Word.plain := by simp
    rw [hslots, hmap]
    exact List.nodup_map_iff fun a b => plain_inj.mp
  · have hmap : (m.groups.map fun g => Word.plain (Naming.accessorMethod g.leadingName)) =
        (m.groups.map Group.leadingName).map fun name => Word.plain (Naming.accessorMethod name) := by
      simp
    rw [hmethods, hmap]
    exact List.nodup_map_iff fun a b hab => accessorMethod_inj.mp (plain_inj.mp hab)
  · have hk := Model.nodup_keys (Plan.accepted_of_make hp).2 .accessor
    rwa [List.map_congr_left hall]

/-- A model with a blank after the name of an accessor, which another group has without it. -/
def colliding : Model where
  groups := [⟨"a", none, [⟨"X"⟩]⟩, ⟨"b", some "a ", []⟩]
  types := [("X", .named ["x"])]

private theorem exists_run_colliding :
    ∃ s, run fieldMapper colliding colliding.types.introspector {} = .ok s := by
  have hok : (run fieldMapper colliding colliding.types.introspector {}).isOk = true := by
    decide +kernel
  cases hr : run fieldMapper colliding colliding.types.introspector {} with
  | ok s => exact ⟨s, rfl⟩
  | error e =>
    rw [hr] at hok
    cases hok

theorem names_distinct_iff_colliding :
    ∃ s ts d, run fieldMapper colliding colliding.types.introspector {} = .ok s ∧
      s.dispatcher = .of dispatcherPath none ts ∧ DispatcherText.of? ts = some d ∧
      d.slots.map Prod.fst = [.plain "a", .plain "a"] ∧
      d.methods.map Source.Outline.Function.name = [.plain "mapper_a", .plain "mapper_a"] := by
  obtain ⟨s, hs⟩ := exists_run_colliding
  obtain ⟨ts, d, hfile, hd, hslots, hmethods, _⟩ := names_distinct_iff hs
  exact ⟨s, ts, d, hs, hfile, hd, hslots.trans (by decide +kernel),
    hmethods.trans (by decide +kernel)⟩

/-- A dispatcher with two slots of one name and two methods of one name. -/
theorem names_collide :
    ∃ s ts d, run fieldMapper colliding colliding.types.introspector {} = .ok s ∧
      s.dispatcher = .of dispatcherPath none ts ∧ DispatcherText.of? ts = some d ∧
      ¬ (d.slots.map Prod.fst).Nodup ∧ ¬ (d.methods.map Source.Outline.Function.name).Nodup := by
  obtain ⟨s, hs⟩ := exists_run_colliding
  obtain ⟨ts, d, hfile, hd, hslots, hmethods⟩ := names_of_run hs
  refine ⟨s, ts, d, hs, hfile, hd, ?_, ?_⟩
  · rw [hslots]
    decide +kernel
  · rw [hmethods]
    decide +kernel

end Generation

end Switchboard
