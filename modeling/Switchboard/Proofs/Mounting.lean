import Switchboard.Proofs.Collisions
import Switchboard.Proofs.ModuleNames

/-! The index that mounts generated files. It can be written just if all module names are bare, and
then it has one module for each group, which the dispatcher finds where the index puts it. -/

namespace Switchboard

open Source (Token Word)
open Source.Outline
open Emission

/-! ## The text of an index -/

/-- A module with what is in it, or a file that is included. -/
inductive IndexItem
  | module (name : Word) (body : List Token)
  | inclusion (base : IncludeBase) (path : String)

/-- What the text of an index says: the modules for converters, each with the one file in it, and
the file next to them. -/
structure IndexText where
  mappers : List (Word × IncludeBase × String)
  dispatcher : IncludeBase × String

namespace IndexText

/-- The file that the arguments of an inclusion name, and from where. -/
def included? : List Token → Option (IncludeBase × String)
  | [.literal path] => (Source.stringValue? path).map fun path => (.relative, path)
  | [.word concat, .mark '!' _, .group .paren [.word env, .mark '!' _,
      .group .paren [.literal place], .mark ',' _, .literal path]] =>
    if concat.is "concat" && env.is "env" &&
        Source.stringValue? place == some "OUT_DIR" then
      match (Source.stringValue? path).map String.toList with
      | some ('/' :: path) => some (.outDir, String.ofList path)
      | _ => none
    else none
  | _ => none

/-- The item that a part is. -/
def item? : Part → Option IndexItem
  | ([.word visibility, .word kind, .word name], .group .brace body) =>
    if visibility.is "pub" && kind.is "mod" then some (.module name body) else none
  | ([.word function, .mark '!' _, .group .paren arguments], .mark ';' _) =>
    if function.is "include" then
      (included? arguments).map fun (base, path) => .inclusion base path
    else none
  | _ => none

def items? (ts : List Token) : Option (List IndexItem) :=
  (parts? endsItem ts).bind (List.mapM item?)

/-- A module with one included file and nothing else. -/
def mapper? : IndexItem → Option (Word × IncludeBase × String)
  | .module name body =>
    match items? body with
    | some [.inclusion base path] => some (name, base, path)
    | _ => none
  | .inclusion _ _ => none

/-- Reads the text of an index: one module for all converters and one file next to it. -/
def of? (ts : List Token) : Option IndexText :=
  match items? ts with
  | some [.module name body, .inclusion base path] =>
    if name.is "mapper" then
      ((items? body).bind (List.mapM mapper?)).map fun mappers => ⟨mappers, (base, path)⟩
    else none
  | _ => none

end IndexText

namespace Emission

/-! What is emitted for an index, as parts -/

def includePart (base : IncludeBase) (path : String) : Part :=
  match base with
  | .outDir =>
    (code "include !" ++ paren (code "concat !" ++
      paren (code "env !" ++ paren [.string "OUT_DIR"] ++ code "," ++ [.string ("/" ++ path)])),
      .mark ';' .alone)
  | .relative => (code "include !" ++ paren [.string path], .mark ';' .alone)

def mountPart (base : IncludeBase) (mount : Word × String) : Part :=
  (code "pub mod" ++ [.word mount.1], .group .brace (includeFile base mount.2))

variable (base : IncludeBase) (path : String)

private theorem includeFile_eq : includeFile base path = joined [includePart base path] := by
  cases base <;> rfl

private theorem isPart_include : IsPart endsItem (includePart base path) := by
  cases base <;> exact ⟨fun _ _ => rfl, rfl⟩

private theorem item?_include :
    IndexText.item? (includePart base path) = some (.inclusion base path) := by
  cases base with
  | outDir =>
    have hp : includePart .outDir path = ([.word (.plain "include"), .mark '!' .alone,
        .group .paren [.word (.plain "concat"), .mark '!' .alone,
          .group .paren [.word (.plain "env"), .mark '!' .alone,
            .group .paren [.string "OUT_DIR"], .mark ',' .alone, .string ("/" ++ path)]]],
        .mark ';' .alone) := rfl
    rw [hp]
    simp [IndexText.item?, IndexText.included?, Token.string, Source.stringValue?_source, Word.is,
      Word.plain]
  | relative =>
    have hp : includePart .relative path = ([.word (.plain "include"), .mark '!' .alone,
        .group .paren [.string path]], .mark ';' .alone) := rfl
    rw [hp]
    simp [IndexText.item?, IndexText.included?, Token.string, Source.stringValue?_source, Word.is,
      Word.plain]

private theorem items?_includeFile :
    IndexText.items? (includeFile base path) = some [.inclusion base path] := by
  rw [includeFile_eq]
  exact bind_parts?_joined (.cons ⟨isPart_include base path, item?_include base path⟩ .nil)

private theorem isPart_mount (mount : Word × String) : IsPart endsItem (mountPart base mount) :=
  ⟨fun _ _ => rfl, rfl⟩

/-- The text of an index says what it was made of. -/
theorem of?_index (mounts : List (Word × String)) (dispatcher : String) :
    IndexText.of? (code "pub mod mapper" ++
        brace (mounts.flatMap fun mount => mountFile base mount.1 mount.2) ++
        includeFile base dispatcher) =
      some ⟨mounts.map fun mount => (mount.1, base, mount.2), (base, dispatcher)⟩ := by
  have hm : mounts.flatMap (fun mount => mountFile base mount.1 mount.2) =
      joined (mounts.map (mountPart base)) :=
    flatMap_eq_joined _ (mountPart base) (fun _ => rfl) mounts
  have hbody : IndexText.items? (mounts.flatMap fun mount => mountFile base mount.1 mount.2) =
      some (mounts.map fun mount => .module mount.1 (includeFile base mount.2)) := by
    rw [hm]
    refine bind_parts?_joined ?_
    rw [List.forall₂_map_left_iff, List.forall₂_map_right_iff]
    exact List.forall₂_same.mpr fun mount _ => ⟨isPart_mount base mount, rfl⟩
  have hmappers : (mounts.map fun mount => IndexItem.module mount.1 (includeFile base mount.2)).mapM
      IndexText.mapper? = some (mounts.map fun mount => (mount.1, base, mount.2)) := by
    refine Traversal.mapM_eq_some ?_
    rw [List.forall₂_map_left_iff, List.forall₂_map_right_iff]
    refine List.forall₂_same.mpr fun mount _ => ?_
    rw [IndexText.mapper?, items?_includeFile]
  have hall : IndexText.items? (code "pub mod mapper" ++
      brace (mounts.flatMap fun mount => mountFile base mount.1 mount.2) ++
      includeFile base dispatcher) = some [.module (.plain "mapper")
        (mounts.flatMap fun mount => mountFile base mount.1 mount.2),
        .inclusion base dispatcher] := by
    have hj : code "pub mod mapper" ++
        brace (mounts.flatMap fun mount => mountFile base mount.1 mount.2) ++
        includeFile base dispatcher = joined [(code "pub mod mapper",
          .group .brace (mounts.flatMap fun mount => mountFile base mount.1 mount.2)),
          includePart base dispatcher] := by
      rw [includeFile_eq]
      simp [joined, brace]
    rw [hj]
    exact bind_parts?_joined (.cons ⟨⟨fun _ _ => rfl, rfl⟩, rfl⟩
      (.cons ⟨isPart_include base dispatcher, item?_include base dispatcher⟩ .nil))
  have hname : (Word.plain "mapper").is "mapper" = true := by decide
  simp only [IndexText.of?, hall, hname, if_true, hbody, Option.bind_some, hmappers,
    Option.map_some]

/-! ## Where the dispatcher finds a converter -/

/-- The module that holds the type at the end of a path. -/
def holder? (path : List Token) : Option Word :=
  match path.reverse with
  | .word _ :: .mark ':' _ :: .mark ':' _ :: .word module :: _ => some module
  | _ => none

private theorem holder?_append (front : List Token) (mount : List Token) (a : Accessor) :
    holder? (front ++ a.typePath mount) = some a.module := by
  have hlink : code "::" = [.mark ':' .joint, .mark ':' .alone] := rfl
  simp [holder?, Accessor.typePath, hlink]

namespace DispatcherText

/-- The modules of the converter types for which there are slots. -/
def slotModules (d : DispatcherText) : List (Option Word) :=
  d.slots.map fun slot => holder? slot.2.dropLast

/-- The modules of the converter types that methods hand out. -/
def methodModules (d : DispatcherText) : List (Option Word) :=
  d.methods.map fun f => holder? f.signature

end DispatcherText

section

variable {m : Model} {ask : Introspector} {c : Config} {p : Plan} {ts : List Token}

/-- The modules in the text of a dispatcher are those that the module names are read as. -/
theorem modules_of?_dispatcher (h : (Plan.make m ask c).2 = .ok p) (hts : dispatcher p c = .ok ts) :
    ∃ d, DispatcherText.of? ts = some d ∧
      d.slotModules = m.groups.map (fun g => Source.identifier? g.moduleName) ∧
      d.methodModules = m.groups.map fun g => Source.identifier? g.moduleName := by
  obtain ⟨type, mount, accessors, _, _, ha, hd⟩ := of?_dispatcher h hts
  have hmodules : (accessors.map fun a => some a.module) =
      m.groups.map fun g => Source.identifier? g.moduleName :=
    Traversal.map_eq_map ha fun g a hok => (accessor_eq_ok_iff.mp hok).2.2.2.1.symm
  have hend : code ">" = [.mark '>' .alone] := rfl
  refine ⟨_, hd, ?_, ?_⟩
  · rw [← hmodules, DispatcherText.slotModules, DispatcherText.made, List.map_map]
    refine List.map_congr_left fun a _ => ?_
    rw [Function.comp_apply, hend, List.dropLast_concat]
    exact holder?_append _ mount a
  · rw [← hmodules, DispatcherText.methodModules, DispatcherText.made, List.map_map]
    exact List.map_congr_left fun a _ => holder?_append _ mount a

end

end Emission

/-! ## The files of a model -/

private theorem Plan.map_module_filesOf (groups : List Group) (ask : Introspector) :
    (filesOf groups ask).map ConverterFile.module = groups.map Group.moduleName := by
  apply List.ext_getElem?
  intro i
  rw [List.getElem?_map, getElem?_filesOf, List.getElem?_map, Option.map_map]
  rfl

/-- Paths of converters are told apart by their module names. -/
theorem Group.converterPath_inj {g h : Group} :
    g.converterPath = h.converterPath ↔ g.moduleName = h.moduleName := by
  change "internal/mapper/" ++ g.moduleName ++ ".rs" =
    "internal/mapper/" ++ h.moduleName ++ ".rs" ↔ _
  rw [← String.toList_inj, ← String.toList_inj]
  simp only [String.toList_append, List.append_cancel_right_eq, List.append_cancel_left_eq]

private theorem Group.converterPath_ne (g : Group) :
    g.converterPath ≠ dispatcherPath ∧ g.converterPath ≠ indexPath := by
  change "internal/mapper/" ++ g.moduleName ++ ".rs" ≠ "internal/dispatcher.rs" ∧
    "internal/mapper/" ++ g.moduleName ++ ".rs" ≠ "internal.rs"
  constructor
  · intro h
    have hl := congrArg String.toList h
    simp at hl
  · intro h
    have hl := congrArg String.toList h
    simp at hl

namespace FileSet

/-- If no two files of a set have one path, each is found by its path. -/
theorem file?_path {s : FileSet} (h : (s.files.map GeneratedFile.path).Nodup) {f : GeneratedFile}
    (hf : f ∈ s.files) : s.file? f.path = some f := by
  rw [file?]
  generalize s.files = files at h hf
  induction files with
  | nil => cases hf
  | cons first rest ih =>
    obtain ⟨hn, hr⟩ := List.nodup_cons.mp h
    rcases List.mem_cons.mp hf with rfl | hf
    · simp
    · have hne : first.path ≠ f.path := fun he => hn (he ▸ List.mem_map_of_mem hf)
      rw [List.find?_cons_of_neg (by simpa using hne)]
      exact ih hr hf

end FileSet

namespace Generation

variable {emit : Emitter} {m : Model} {ask : Introspector} {c : Config} {s : FileSet}

/-- There is a converter for each group in order, with its path and its module name. -/
theorem converters_of_run (h : run emit m ask c = .ok s) :
    List.Forall₂ (fun g f => f.path = g.converterPath ∧ f.module = some g.moduleName)
      m.groups s.converters := by
  obtain ⟨p, _, hp, hconverters, -, -⟩ := exists_plan_of_run h
  obtain ⟨_, tables, _, rfl⟩ := Plan.make_eq_ok hp
  rw [Traversal.mapM_eq_ok_iff] at hconverters
  have hentries : s.converters.map (fun f => (f.path, f.module)) =
      (Plan.filesOf m.groups ask).map fun f => (f.path, some f.module) := by
    refine Traversal.map_eq_map hconverters fun f file hf => ?_
    simp only [converterFile, Traversal.bind_eq_ok_iff, Traversal.pure_eq_ok_iff] at hf
    obtain ⟨_, _, rfl⟩ := hf
    rfl
  have hfiles : (Plan.filesOf m.groups ask).map (fun f => (f.path, some f.module)) =
      m.groups.map fun g => (g.converterPath, some g.moduleName) := by
    have hmodules := congrArg (List.map fun module : String =>
      ("internal/mapper/" ++ module ++ ".rs", some module))
      (Plan.map_module_filesOf m.groups ask)
    rw [List.map_map, List.map_map] at hmodules
    exact hmodules
  rw [hfiles, eq_comm, ← List.forall₂_eq_eq_eq, List.forall₂_map_left_iff,
    List.forall₂_map_right_iff] at hentries
  refine hentries.imp fun g f hf => ?_
  rw [Prod.mk.injEq] at hf
  exact ⟨hf.1.symm, hf.2.symm⟩

/-- An index can be written just if all module names are bare. -/
theorem isSome_index?_iff (h : run emit m ask c = .ok s) (base : IncludeBase) :
    (s.index? base).isSome = true ↔ ∀ g ∈ m.groups, g.hasBareModule = true := by
  obtain ⟨p, _, hp, _⟩ := exists_dispatcher_of_run h
  have hg := ((Model.isValid_iff m).mp (Plan.accepted_of_make hp).2).1
  have hc := converters_of_run h
  have hmount {g : Group} {f : GeneratedFile} (hgm : g ∈ m.groups)
      (hf : f.path = g.converterPath ∧ f.module = some g.moduleName) :
      (GeneratedFile.mount? base f).isSome = g.hasBareModule := by
    rw [GeneratedFile.mount?, hf.2]
    dsimp only
    rw [Group.moduleWord?_eq (hg g hgm)]
    cases g.hasBareModule <;> rfl
  have hi : (s.index? base).isSome = (s.converters.mapM (GeneratedFile.mount? base)).isSome := by
    rw [FileSet.index?]
    cases s.converters.mapM (GeneratedFile.mount? base) <;> rfl
  rw [hi, Traversal.isSome_mapM_iff]
  constructor
  · intro hall g hgm
    obtain ⟨f, hf, hgf⟩ := Traversal.exists_of_mem_left hc hgm
    rw [← hmount hgm hgf]
    exact hall f hf
  · intro hall f hf
    obtain ⟨g, hgm, hgf⟩ := Traversal.exists_of_mem_left hc.flip hf
    rw [hmount hgm hgf]
    exact hall g hgm

/-- The text of an index mounts each converter in a module that has the name of its group's. -/
theorem index?_of_run (h : run emit m ask c = .ok s) {base : IncludeBase} {text : String}
    (ht : s.index? base = some text) :
    text = contents (code "pub mod mapper" ++
      brace ((m.groups.map fun g => (Word.plain g.moduleName, g.converterPath)).flatMap fun mount =>
        mountFile base mount.1 mount.2) ++ includeFile base s.dispatcher.path) := by
  obtain ⟨p, _, hp, _⟩ := exists_dispatcher_of_run h
  have hg := ((Model.isValid_iff m).mp (Plan.accepted_of_make hp).2).1
  have hall := (isSome_index?_iff h base).mp (by rw [ht]; rfl)
  have hm : s.converters.mapM (GeneratedFile.mount? base) =
      some (m.groups.map fun g => mountFile base (.plain g.moduleName) g.converterPath) := by
    apply Traversal.mapM_eq_some
    rw [List.forall₂_map_right_iff]
    have hbare : List.Forall₂ (fun g f => (g.complaints = [] ∧ g.hasBareModule = true) ∧
        f.path = g.converterPath ∧ f.module = some g.moduleName) m.groups s.converters :=
      (List.forall₂_and_left _ _).mpr
        ⟨fun g hgm => ⟨hg g hgm, hall g hgm⟩, converters_of_run h⟩
    refine hbare.flip.imp fun f g hf => ?_
    obtain ⟨⟨hcomplaints, hb⟩, hpath, hmodule⟩ := hf
    rw [GeneratedFile.mount?, hmodule]
    dsimp only
    rw [Group.moduleWord?_eq hcomplaints, if_pos hb, Option.map_some, hpath]
  rw [FileSet.index?, hm] at ht
  rw [List.flatMap_map, List.flatMap_def]
  exact (Option.some.inj ht).symm

/-- The index says that each converter is in a module of its own. -/
theorem of?_index?_of_run (h : run emit m ask c = .ok s) {base : IncludeBase} {text : String}
    (ht : s.index? base = some text) :
    ∃ ts, text = contents ts ∧ IndexText.of? ts =
      some ⟨m.groups.map fun g => (.plain g.moduleName, base, g.converterPath),
        (base, s.dispatcher.path)⟩ := by
  have hread := of?_index base (m.groups.map fun g => (.plain g.moduleName, g.converterPath))
    s.dispatcher.path
  rw [List.map_map] at hread
  exact ⟨_, index?_of_run h ht, hread⟩

theorem paths_of_run (h : run emit m ask c = .ok s) :
    s.files.map GeneratedFile.path = m.groups.map Group.converterPath ++ [dispatcherPath] := by
  obtain ⟨_, _, _, _, hd⟩ := exists_dispatcher_of_run h
  rw [FileSet.files, List.map_append, List.map_singleton, hd,
    Traversal.map_eq_map (converters_of_run h) fun g f hf => hf.1]
  rfl

private theorem nodup_paths_of_run (h : run emit m ask c = .ok s) :
    (s.files.map GeneratedFile.path).Nodup := by
  obtain ⟨_, _, hp, _⟩ := exists_dispatcher_of_run h
  have hk := Model.nodup_keys (Plan.accepted_of_make hp).2 .moduleName
  have hc : (m.groups.map Group.converterPath).Nodup := by
    rw [List.Nodup, List.pairwise_map] at hk ⊢
    exact hk.imp fun hne he => hne (Group.converterPath_inj.mp he)
  rw [paths_of_run h, List.nodup_append]
  refine ⟨hc, List.nodup_singleton _, ?_⟩
  intro path hpath other hother he
  obtain ⟨g, _, rfl⟩ := List.mem_map.mp hpath
  rw [List.mem_singleton.mp hother] at he
  exact g.converterPath_ne.1 he

/-- That an index mounts the files of some groups: one module for each group in order, no two of one
name and in each the file of the group, whose path is right below the directory for converters, and
the dispatcher next to them. -/
structure Mounts (groups : List Group) (s : FileSet) (base : IncludeBase) (i : IndexText) :
    Prop where
  names : i.mappers.map Prod.fst = groups.map fun g => .plain g.moduleName
  distinct : (i.mappers.map Prod.fst).Nodup
  included : i.mappers.map Prod.snd = s.converters.map fun f => (base, f.path)
  steps : s.converters.map (fun f => Route.stepsOf f.path) =
    groups.map fun g => ["internal", "mapper", g.moduleName ++ ".rs"]
  dispatcher : i.dispatcher = (base, s.dispatcher.path)

/-- Files that are generated have paths of their own, and a converter is right below the directory
for converters just if no slash is in the module name of its group. There is an index for the files
just if the text of every module name is a name and nothing else. Then it mounts them, and the
dispatcher looks for the converter of each group in the module that the index has for it. -/
theorem run_mountable (h : run emit m ask c = .ok s) :
    (s.files.map GeneratedFile.path).Nodup ∧
    (∀ f ∈ s.files, f.path ≠ indexPath ∧ s.file? f.path = some f) ∧
    List.Forall₂ (fun g f => f.path = "internal/mapper/" ++ g.moduleName ++ ".rs" ∧
      (Route.stepsOf f.path = ["internal", "mapper", g.moduleName ++ ".rs"] ↔
        '/' ∉ g.moduleName.toList)) m.groups s.converters ∧
    ∀ base, ((s.index? base).isSome = true ↔ ∀ g ∈ m.groups, g.hasBareModule = true) ∧
      ∀ text, s.index? base = some text →
        ∃ ts i ts' d, text = contents ts ∧ IndexText.of? ts = some i ∧
          Mounts m.groups s base i ∧
          s.dispatcher = .of dispatcherPath none ts' ∧ DispatcherText.of? ts' = some d ∧
          d.slotModules = i.mappers.map (fun mount => some mount.1) ∧
          d.methodModules = i.mappers.map fun mount => some mount.1 := by
  have hn := nodup_paths_of_run h
  refine ⟨hn, fun f hf => ⟨?_, FileSet.file?_path hn hf⟩, ?_, fun base =>
    ⟨isSome_index?_iff h base, fun text ht => ?_⟩⟩
  · have hpath := List.mem_map_of_mem (f := GeneratedFile.path) hf
    rw [paths_of_run h, List.mem_append, List.mem_singleton] at hpath
    rcases hpath with hpath | hpath
    · obtain ⟨g, _, hg⟩ := List.mem_map.mp hpath
      rw [← hg]
      exact g.converterPath_ne.2
    · rw [hpath]
      decide
  · refine (converters_of_run h).imp fun g f hf => ⟨hf.1, ?_⟩
    rw [hf.1]
    exact g.stepsOf_converterPath_iff
  · obtain ⟨p, ts', hp, hts', hs⟩ := exists_dispatcher_of_run h
    obtain ⟨d, hd, hslots, hmethods⟩ := modules_of?_dispatcher hp hts'
    obtain ⟨ts, hts, hi⟩ := of?_index?_of_run h ht
    have hg := ((Model.isValid_iff m).mp (Plan.accepted_of_make hp).2).1
    have hall := (isSome_index?_iff h base).mp (by rw [ht]; rfl)
    have hwords : (m.groups.map fun g => Source.identifier? g.moduleName) =
        m.groups.map fun g => some (Word.plain g.moduleName) :=
      List.map_congr_left fun g hgm => Group.identifier?_of_bare (hg g hgm) (hall g hgm)
    have hc := converters_of_run h
    refine ⟨ts, _, ts', d, hts, hi, ⟨?_, ?_, ?_, ?_, rfl⟩, hs, hd, ?_, ?_⟩
    · rw [List.map_map]
      rfl
    · have hk := Model.nodup_keys (Plan.accepted_of_make hp).2 .moduleName
      rw [List.map_map]
      rw [List.Nodup, List.pairwise_map] at hk ⊢
      exact hk.imp fun hne he => hne (congrArg Word.text he)
    · rw [List.map_map]
      exact (Traversal.map_eq_map hc fun g f hf => by rw [hf.1]; rfl).symm
    · refine (Traversal.map_eq_map hc fun g f hf => by rw [hf.1]).trans ?_
      exact List.map_congr_left fun g hgm =>
        g.stepsOf_converterPath_iff.mpr (Group.slash_not_mem_of_bare (hall g hgm))
    · rw [hslots, hwords, List.map_map]
      rfl
    · rw [hmethods, hwords, List.map_map]
      rfl

/-- A model in which comment marks are in the name of a group. -/
def slashed : Model where
  groups := [⟨"a//b", some "ab", []⟩]

/-- A model with nothing but names. -/
def named : Model where
  groups := [⟨"b", none, []⟩, ⟨"GroupC", some "d", []⟩]

theorem run_mountable_named :
    ∃ s text, run fieldMapper named named.types.introspector {} = .ok s ∧
      s.index? .relative = some text ∧ ∃ ts i, text = contents ts ∧ IndexText.of? ts = some i ∧
        i.mappers.map Prod.fst = [.plain "b", .plain "group_c"] := by
  obtain ⟨s, hs⟩ : ∃ s, run fieldMapper named named.types.introspector {} = .ok s :=
    Traversal.exists_of_isOk (by decide +kernel)
  obtain ⟨-, -, -, hall⟩ := run_mountable hs
  obtain ⟨hiff, hmounts⟩ := hall .relative
  obtain ⟨text, ht⟩ := Option.isSome_iff_exists.mp (hiff.mpr (by decide +kernel))
  obtain ⟨ts, i, _, _, hts, hi, hm, -⟩ := hmounts text ht
  exact ⟨s, text, hs, ht, ts, i, hts, hi, hm.names.trans (by decide +kernel)⟩

/-- Files that no index can mount, one of them in a directory that is made of a group's name. -/
theorem index_refused :
    ∃ s, run fieldMapper slashed slashed.types.introspector {} = .ok s ∧
      (∀ base, s.index? base = none) ∧
      ∃ f ∈ s.converters, f.path = "internal/mapper/a//b.rs" := by
  obtain ⟨s, hs⟩ : ∃ s, run fieldMapper slashed slashed.types.introspector {} = .ok s :=
    Traversal.exists_of_isOk (by decide +kernel)
  have hn : ¬ ∀ g ∈ slashed.groups, g.hasBareModule = true := by decide +kernel
  refine ⟨s, hs, fun base => ?_, ?_⟩
  · rw [← isSome_index?_iff hs base] at hn
    simpa using hn
  · have hg : ⟨"a//b", some "ab", []⟩ ∈ slashed.groups := by decide
    obtain ⟨f, hf, hpath, _⟩ := Traversal.exists_of_mem_left (converters_of_run hs) hg
    exact ⟨f, hf, hpath.trans (by decide +kernel)⟩

end Generation

end Switchboard
