import Switchboard.Proofs.ConverterText
import Switchboard.Proofs.DispatcherText
import Switchboard.Proofs.SampleInputs
import Switchboard.Sample.Session

/-! The source text that is generated from the sample schema. Its dispatcher routes each name to the
group that owns the type, and the converter of a group takes and puts the fields of the structs of
that group, as they are declared. -/

namespace Switchboard.Sample

open Ownership (claimant? resolve)
open Source (Token Word)
open Source.Outline (chosen?)
open Emission

/-! ## Who has which type -/

/-- The names that the groups claim. -/
private theorem texts_claims :
    groups.map (fun g => g.claims.map SchemaPath.text) =
      [["typemux_testing_fixtures::schema::Pet", "typemux_testing_fixtures::schema::Owner",
          "typemux_testing_fixtures::schema::Tag"],
        ["typemux_testing_fixtures::schema::Owner", "typemux_testing_fixtures::schema::Person",
          "typemux_testing_fixtures::schema::Pair"],
        ["typemux_testing_fixtures::schema::Pet"],
        ["typemux_testing_fixtures::schema::Keyword",
          "typemux_testing_fixtures::schema::Marker"]] := by
  decide +kernel

private theorem claimant?_eq_findIdx? (groups : List Group) (name : String) :
    claimant? groups name =
      (groups.map fun g => g.claims.map SchemaPath.text).findIdx? fun names =>
        decide (name ∈ names) := by
  rw [claimant?, List.findIdx?_map]
  congr 1
  funext g
  exact decide_eq_decide.mpr (by simp [Group.Claims])

/-- The names that are written out in the dispatcher are routed to their claimants. -/
theorem claimant?_groups (name : String) :
    claimant? groups name = (Dispatcher.memberOf? name).map Member.index := by
  rw [claimant?_eq_findIdx?, texts_claims, Dispatcher.memberOf?]
  split
  case isTrue h => rcases h with rfl | rfl | rfl <;> decide +kernel
  case isFalse =>
    split
    case isTrue h => rcases h with rfl | rfl <;> decide +kernel
    case isFalse =>
      split
      case isTrue h => rcases h with rfl | rfl <;> decide +kernel
      case isFalse => simp_all [List.findIdx?_cons]

/-- The names of the structs of a group. -/
private theorem paths_structs (m : Member) :
    m.structs.map Struct.path = match m with
      | .pets => ["typemux_testing_fixtures::schema::Pet",
          "typemux_testing_fixtures::schema::Owner", "typemux_testing_fixtures::schema::Tag"]
      | .people => ["typemux_testing_fixtures::schema::Person",
          "typemux_testing_fixtures::schema::Pair"]
      | .shadow => []
      | .keywords => ["typemux_testing_fixtures::schema::Keyword",
          "typemux_testing_fixtures::schema::Marker"] := by
  cases m <;> decide +kernel

/-- A group has the structs that are routed to it. -/
theorem mem_structs_iff (m : Member) (name : String) :
    (∃ s ∈ m.structs, s.path = name) ↔ Dispatcher.memberOf? name = some m := by
  rw [← List.mem_map, paths_structs]
  constructor
  · intro h
    cases m <;> simp only [List.mem_cons, List.not_mem_nil, or_false] at h
    case pets => rcases h with rfl | rfl | rfl <;> decide +kernel
    case people => rcases h with rfl | rfl <;> decide +kernel
    case keywords => rcases h with rfl | rfl <;> decide +kernel
  · intro h
    unfold Dispatcher.memberOf? at h
    split at h
    case isTrue hn =>
      cases h
      simpa using hn
    case isFalse =>
      split at h
      case isTrue hn =>
        cases h
        simpa using hn
      case isFalse =>
        split at h
        case isTrue hn =>
          cases h
          simpa using hn
        case isFalse => cases h

variable {types : TypeTable} {ask : Introspector} {c : Config} {p : Plan}

/-! ## The text of the dispatcher -/

/-- What the dispatcher has for a group whose accessor has some name. -/
private def accessorNamed (name group converter : String) : Accessor where
  group
  field := .plain name
  method := .plain (Naming.accessorMethod name)
  module := .plain name
  converter := .plain converter

/-- What the dispatcher has for a group. -/
def Member.accessor : Member → Accessor
  | .pets => accessorNamed "pets" "pets" "PetsMapper"
  | .people => accessorNamed "people" "people" "PeopleMapper"
  | .shadow => accessorNamed "shadow" "shadow" "ShadowMapper"
  | .keywords => accessorNamed "keywords" "Keywords" "KeywordsMapper"

/-- The body of the arm for a name. -/
def armFor (by' : Word → List Token) (name : String) : List Token :=
  match Dispatcher.memberOf? name with
  | some m => by' m.accessor.method
  | none => unmatched

/-- Whether a text is that of the dispatcher, with some settings. There are a slot, its first value
and a method for each group, which makes the converter of the group when it is first asked for; each
name is routed as the dispatcher routes it, and of many items each is converted when it is asked
for. -/
structure Describes (c : Config) (mount : List Token) (text : DispatcherText) : Prop where
  type : Source.identifier? c.dispatcher = some text.type
  mounted : Source.path? c.mount = some mount
  slots : text.slots = members.map fun m => (m.accessor.field,
    code ":: typemux :: core :: ConverterSlot <" ++ m.accessor.typePath mount ++ code ">")
  initials : text.initials =
    members.map fun m => (m.accessor.field, call ":: typemux :: core :: ConverterSlot :: new" [])
  methods : text.methods = members.map fun m => m.accessor.function mount
  decode : ∀ name, chosen? text.conversions.decode name = some (armFor decodeBy name)
  encode : ∀ name, chosen? text.conversions.encode name = some (armFor encodeBy name)
  batch : text.batch = [decodeMany, encodeMany]

private theorem chosen?_routes {text : DispatcherText} {t : DispatchTable}
    {by' : Word → List Token} {arms : List Source.Outline.Arm} (hr : text.Routes t by' arms)
    {mount : List Token} (hm : text.methods = members.map fun m => m.accessor.function mount)
    (ht : ∀ name, t.groupOf name = (Dispatcher.memberOf? name).map Member.index) (name : String) :
    chosen? arms name = some (armFor by' name) := by
  rw [armFor]
  cases hn : Dispatcher.memberOf? name with
  | none => exact hr.unrouted name (by rw [ht, hn, Option.map_none])
  | some m =>
    obtain ⟨f, hf, hc⟩ := hr.routed name m.index (by rw [ht, hn, Option.map_some])
    have hfunction : text.methods[m.index]? = some (m.accessor.function mount) := by
      rw [hm]
      cases m <;> rfl
    rw [hc, Option.some.inj (hf.symm.trans hfunction)]
    rfl

/-- The dispatcher that is generated for the groups is the dispatcher of the schema. -/
theorem exists_describes (h : (Plan.make ⟨groups, types⟩ ask c).2 = .ok p) :
    ∃ ts text mount, Emission.dispatcher p c = .ok ts ∧ DispatcherText.of? ts = some text ∧
      Describes c mount text := by
  -- the model fixes all names, so they are read off it; the routes come from the tables
  have hbare : ∀ g ∈ groups, g.hasBareAccessor = true := by decide +kernel
  have hnames : groups.mapM accessor = .ok (members.map Member.accessor) :=
    Traversal.eq_ok_of_toOption (by decide +kernel)
  obtain ⟨ts, hts⟩ := exists_dispatcher_eq_ok h hbare
  obtain ⟨type, mount, accessors, htype, hmount, ha, hd⟩ := of?_dispatcher h hts
  obtain ⟨tables, rfl, hcd, hce, hrd, hre⟩ := Plan.exists_tables_of_make h
  have hl : accessors.length = groups.length := ha.length_eq.symm
  obtain rfl : accessors = members.map Member.accessor :=
    Except.ok.inj ((Traversal.mapM_eq_ok_iff.mpr ha).symm.trans hnames)
  have hmethods : (DispatcherText.made type mount (members.map Member.accessor)
      (routeArms (members.map Member.accessor) tables.decode)
      (routeArms (members.map Member.accessor) tables.encode)).methods =
        members.map fun m => m.accessor.function mount := List.map_map
  refine ⟨ts, _, mount, hts, hd, htype, hmount, List.map_map, List.map_map, hmethods, ?_, ?_, rfl⟩
  · exact chosen?_routes (routes_of_resolve rfl hl hcd hrd decodeBy) hmethods
      fun name => (hrd name).trans (claimant?_groups name)
  · exact chosen?_routes (routes_of_resolve rfl hl hce hre encodeBy) hmethods
      fun name => (hre name).trans (claimant?_groups name)

/-! ## The texts of the converters -/

/-- Whether the bodies of two arms convert a struct. They name its type, and for each field in order
what is taken under its key fills its member, and its member is put under its key. -/
structure Struct.Converts (s : Struct) (a : Assembly) (b : Disassembly) : Prop where
  assembled : Source.path? s.path = some a.type
  disassembled : b.type = a.type
  members : Emission.members s.constructor = .ok (a.members.map Prod.fst)
  takes : a.members.map Prod.snd = s.fields.map Field.key
  puts : b.entries = a.members.map Prod.swap

/-- Whether a text is that of the converter of a group: it converts the structs of the group, and no
other type. -/
structure Member.Converts (m : Member) (text : ConverterText) : Prop where
  type : text.type = m.accessor.converter
  structs : ∀ s ∈ m.structs, ∃ d e a b,
    chosen? text.conversions.decode s.path = some d ∧
    chosen? text.conversions.encode s.path = some e ∧
    Assembly.of? d = some a ∧ Disassembly.of? e = some b ∧ s.Converts a b
  others : ∀ name, (∀ s ∈ m.structs, s.path ≠ name) →
    chosen? text.conversions.decode name = some unmatched ∧
      chosen? text.conversions.encode name = some unmatched

/-- What the converter of a group is made from. -/
def Member.file (m : Member) : ConverterFile where
  group := m.index
  name := m.accessor.group
  converter := m.accessor.converter.text
  module := m.accessor.module.text
  mapped := m.structs.filterMap fun s =>
    if s.constructor.hasFields then some ⟨⟨s.path⟩, s.constructor⟩ else none
  fieldless := (m.structs.filter fun s => !s.constructor.hasFields).map fun s => ⟨s.path⟩

private theorem owned_eq (m : Member) : ((resolve groups).ownedBy m.index).eraseDups =
    m.structs.map fun s => ⟨s.path⟩ := by
  cases m <;> decide +kernel

/-- With the constructors of the structs, the converter of a group is made from its structs. -/
theorem file_eq (h : (Plan.make ⟨groups, types⟩ ask c).2 = .ok p)
    (hk : ∀ s ∈ structs, ask ⟨s.path⟩ = .ok s.constructor) (m : Member) :
    p.files[m.index]? = some m.file := by
  obtain ⟨-, tables, -, rfl⟩ := Plan.make_eq_ok h
  have hstruct (s : Struct) (hs : s ∈ m.structs) : ask ⟨s.path⟩ = .ok s.constructor :=
    hk s (mem_structs hs)
  have hmapped : ArityFilter.mappedOf ask (m.structs.map fun s => ⟨s.path⟩) = m.file.mapped := by
    rw [ArityFilter.mappedOf, List.filterMap_map]
    exact List.filterMap_congr fun s hs => by simp only [Function.comp_apply, hstruct s hs]
  have hfieldless : ArityFilter.fieldlessOf ask (m.structs.map fun s => ⟨s.path⟩) =
      m.file.fieldless := by
    rw [ArityFilter.fieldlessOf, List.filter_map]
    refine congrArg _ (List.filter_congr fun s hs => ?_)
    simp only [Function.comp_apply, hstruct s hs]
  have hnames : (groups[m.index]?).map (fun g => (g.name, g.converterName, g.moduleName)) =
      some (m.file.name, m.file.converter, m.file.module) := by
    cases m <;> decide +kernel
  obtain ⟨g, hg, hnames⟩ := Option.map_eq_some_iff.mp hnames
  simp only [Prod.mk.injEq] at hnames
  obtain ⟨hname, hconverter, hmodule⟩ := hnames
  rw [Plan.getElem?_filesOf, hg, Option.map_some, ArityFilter.fileOf, owned_eq, hmapped, hfieldless,
    hname, hconverter, hmodule]
  rfl

/-- The file of a group has the names of the structs of the group. -/
private theorem exists_of_mem_names {m : Member} {name : String} (h : name ∈ m.file.names) :
    ∃ s ∈ m.structs, s.path = name := by
  rw [ConverterFile.names, List.mem_append] at h
  rcases h with h | h
  · obtain ⟨t, ht, rfl⟩ := List.mem_map.mp h
    obtain ⟨s, hs, hst⟩ := List.mem_filterMap.mp ht
    split at hst
    case isTrue =>
      cases hst
      exact ⟨s, hs, rfl⟩
    case isFalse => cases hst
  · obtain ⟨q, hq, rfl⟩ := List.mem_map.mp h
    obtain ⟨s, hs, rfl⟩ := List.mem_map.mp hq
    exact ⟨s, (List.mem_filter.mp hs).1, rfl⟩

/-- The converter that is generated for a group converts the structs of the group. -/
theorem exists_converts (h : (Plan.make ⟨groups, types⟩ ask c).2 = .ok p)
    (hk : ∀ s ∈ structs, ask ⟨s.path⟩ = .ok s.constructor) (m : Member) :
    ∃ f ts text, p.files[m.index]? = some f ∧ fieldMapper f = .ok ts ∧
      ConverterText.of? ts = some text ∧ m.Converts text := by
  have hok : (fieldMapper m.file).isOk = true := by cases m <;> decide +kernel
  have hn : m.file.names.Nodup := by cases m <;> decide +kernel
  have htype : Source.identifier? m.file.converter = some m.accessor.converter := by
    cases m <;> decide +kernel
  obtain ⟨ts, hts⟩ := Traversal.exists_of_isOk hok
  obtain ⟨text, htext, htype', hmapped, hfieldless, hothers⟩ := fieldMapper_chooses hts hn
  refine ⟨m.file, ts, text, file_eq h hk m, hts, htext, ?_, fun s hs => ?_, fun name hname => ?_⟩
  · exact Option.some.inj (htype'.symm.trans htype)
  · by_cases hf : s.constructor.hasFields
    · have hmem : ⟨⟨s.path⟩, s.constructor⟩ ∈ m.file.mapped :=
        List.mem_filterMap.mpr ⟨s, hs, if_pos hf⟩
      obtain ⟨d, e, a, b, hd, he, ha, hb, hm⟩ := hmapped _ hmem
      exact ⟨d, e, a, b, hd, he, ha, hb, hm.assembled, hm.disassembled, hm.members,
        hm.params.trans s.params, hm.entries⟩
    · have hmem : ⟨s.path⟩ ∈ m.file.fieldless :=
        List.mem_map.mpr ⟨s, List.mem_filter.mpr ⟨hs, by simpa using hf⟩, rfl⟩
      obtain ⟨d, e, type, hd, he, hp, ha, hb⟩ := hfieldless _ hmem
      obtain ⟨hm, hparams⟩ := members_of_fieldless (by simpa using hf)
      exact ⟨d, e, _, _, hd, he, ha, hb, hp, rfl, hm, hparams.symm.trans s.params, rfl⟩
  · exact hothers name fun hmem =>
      have ⟨s, hs, he⟩ := exists_of_mem_names hmem
      hname s hs he

/-! ## Everything that is generated -/

/-- Whether inputs and a plan are those of the sample schema, and the source text that is generated
from them is that of the converters and the dispatcher here. The source declares every struct, field
by field, and knows its constructor. -/
structure Generates (i : Inputs) (p : Plan) : Prop where
  read : inputs = .ok i
  declared : ∃ ts, Source.scan sourceText = some ts ∧ ∀ s ∈ structs, s.declaration ∈ declarations ts
  known : ∀ s ∈ structs, i.sources.introspector ⟨s.path⟩ = .ok s.constructor
  planned : (Plan.make i.model i.sources.introspector i.config).2 = .ok p
  dispatcher : ∃ ts text mount, Emission.dispatcher p i.config = .ok ts ∧
    DispatcherText.of? ts = some text ∧ Describes i.config mount text
  converters : ∀ m : Member, ∃ f ts text, p.files[m.index]? = some f ∧ fieldMapper f = .ok ts ∧
    ConverterText.of? ts = some text ∧ m.Converts text

/-- The groups of the model are those of the schema. -/
theorem Generates.groups {i : Inputs} (h : Generates i p) : i.model.groups = groups := by
  obtain ⟨j, hj, hm, -⟩ := exists_inputs
  cases h.read.symm.trans hj
  rw [hm]

/-- The sample schema has inputs and a plan. -/
theorem exists_generates : ∃ i p, Generates i p := by
  obtain ⟨⟨model, sources, config⟩, hi, rfl, rfl, hknown⟩ := exists_inputs
  have hclaims : ∀ q ∈ groups.flatMap Group.claims, ∃ s ∈ structs, ⟨s.path⟩ = q := by decide +kernel
  obtain ⟨p, hp⟩ : ∃ p, (Plan.make ⟨groups, []⟩ sources.introspector {}).2 = .ok p := by
    refine Plan.exists_make_eq_ok (by decide +kernel) (by decide +kernel) fun q hq => ?_
    obtain ⟨s, hs, rfl⟩ := hclaims q (List.mem_eraseDups.mp hq)
    rw [hknown s hs]
    rfl
  exact ⟨_, p, hi, exists_declared, hknown, hp, exists_describes hp, exists_converts hp hknown⟩

end Switchboard.Sample
