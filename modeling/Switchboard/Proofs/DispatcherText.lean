import Switchboard.Proofs.Accessors
import Switchboard.Proofs.OutlineLaws

/-! The text of the dispatcher. Read as an outline it has a slot and a method for each group, and the
arms by which it chooses a method route every name as the tables do. -/

namespace Switchboard.Emission

open Source (Token Word)
open Source.Outline
open Source.Parse (Joins)

/-- What the text of a dispatcher says. -/
structure DispatcherText where
  type : Word
  /-- The fields with their types. -/
  slots : List (Word × List Token)
  /-- The fields with their first values. -/
  initials : List (Word × List Token)
  /-- The functions of the type other than the one that makes it. -/
  methods : List Function
  conversions : Conversions
  /-- The functions by which many objects are converted. -/
  batch : List Function

namespace DispatcherText

/-- The names of the trait by which many objects are converted. -/
def batchTrait : List Word := [.plain "typemux", .plain "core", .plain "BatchMapper"]

/-- The fields of a value that is made of fields. -/
def initials? : List Token → Option (List (Word × List Token))
  | [.word w, .group .brace body] => if w.is "Self" then fields? body else none
  | _ => none

/-- Reads the text of a dispatcher: one type, the functions of the type, and those by which it
converts single objects and many. -/
def of? (ts : List Token) : Option DispatcherText := do
  let entries ← entries? ts
  let (type, fields) ← only? (entries.filterMap Entry.struct?)
  let functions ← (only? (entries.filterMap (Entry.methods? type))).bind functions?
  let conversions ←
    (only? (entries.filterMap (Entry.implementation? objectTrait type))).bind conversions?
  let batch ← (only? (entries.filterMap (Entry.implementation? batchTrait type))).bind functions?
  return {
    type
    slots := ← fields? fields
    initials := ← (bodyOf? "new" functions).bind initials?
    methods := functions.filter fun f => !f.name.is "new"
    conversions
    batch }

end DispatcherText

namespace Accessor

variable (mount : List Token) (a : Accessor)

/-! What is emitted for a group, as parts -/

def slotPart : Part :=
  ([.word a.field] ++ code ": :: typemux :: core :: ConverterSlot <" ++ a.typePath mount ++
    code ">", .mark ',' .alone)

def initialPart : Part :=
  ([.word a.field] ++ call ": :: typemux :: core :: ConverterSlot :: new" [], .mark ',' .alone)

/-- What the method makes its converter by. -/
def methodBody : List Token :=
  code "self ." ++ [.word a.field] ++ call ". get_or_init" (a.typePath mount ++ code ":: new")

def function : Function :=
  ⟨a.method, paren (code "& self") ++ code "-> &" ++ a.typePath mount, a.methodBody mount⟩

def methodPart : Part :=
  (doc s!" Converter for the `{a.group}` group, built on first use." ++ mustUse ++ code "pub fn" ++
    [.word a.method] ++ paren (code "& self") ++ code "-> &" ++ a.typePath mount,
   .group .brace (a.methodBody mount))

variable {mount}

private theorem balanced_typePath (hm : Balanced mount) : Balanced (a.typePath mount) :=
  Joins.append _ [_] (Joins.append _ _ (Joins.append _ [_] (Joins.append _ _ hm
    (balanced_of_isPlain rfl)) (balanced_of_isPlain rfl)) (balanced_of_isPlain rfl))
    (balanced_of_isPlain rfl)

private theorem isPart_slot (hm : Balanced mount) : IsPart isComma (a.slotPart mount) where
  passes := passes_append (b := ⟨1, false⟩) (passes_append (b := ⟨1, false⟩) (fun _ _ => rfl)
    ((a.balanced_typePath hm).bracketed _ 0)) fun _ _ => rfl
  ended := rfl

private theorem isPart_initial : IsPart isComma a.initialPart := ⟨fun _ _ => rfl, rfl⟩

private theorem endsNoPath_endsItem :
    EndsNoPath endsItem := ⟨fun _ => rfl, fun _ => rfl, fun _ => rfl⟩

private theorem isPart_method (hm : Balanced mount) : IsPart endsItem (a.methodPart mount) where
  passes := passes_append (b := {}) (fun _ _ => rfl)
    (a.balanced_typePath hm _ 0 fun _ => endsNoPath_endsItem)
  ended := rfl

end Accessor

def newPart (accessors : List Accessor) : Part :=
  (mustUse ++ call "pub const fn new" [] ++ code "-> Self",
    .group .brace (code "Self" ++ brace (accessors.flatMap Accessor.initial)))

/-- The functions of a dispatcher that are its own. -/
def ownFunctions (mount : List Token) (accessors : List Accessor) : List Token :=
  mustUse ++ call "pub const fn new" [] ++ code "-> Self" ++
    brace (code "Self" ++ brace (accessors.flatMap Accessor.initial)) ++
    accessors.flatMap (Accessor.methodTokens mount)

section

variable {mount : List Token} (hm : Balanced mount) (accessors : List Accessor)

include hm

private theorem fields?_slots : fields? (accessors.flatMap (Accessor.slot mount)) =
    some (accessors.map fun a => (a.field,
      code ":: typemux :: core :: ConverterSlot <" ++ a.typePath mount ++ code ">")) := by
  rw [flatMap_eq_joined (Accessor.slot mount) (Accessor.slotPart mount) ?_]
  · refine bind_parts?_joined ?_
    rw [List.forall₂_map_left_iff, List.forall₂_map_right_iff]
    exact List.forall₂_same.mpr fun a _ => ⟨a.isPart_slot hm, rfl⟩
  · intro a
    simp only [Accessor.slot, Accessor.slotPart, List.append_assoc]
    rfl

omit hm in
private theorem fields?_initials : fields? (accessors.flatMap Accessor.initial) =
    some (accessors.map fun a =>
      (a.field, call ":: typemux :: core :: ConverterSlot :: new" [])) := by
  rw [flatMap_eq_joined Accessor.initial Accessor.initialPart fun _ => rfl]
  refine bind_parts?_joined ?_
  rw [List.forall₂_map_left_iff, List.forall₂_map_right_iff]
  exact List.forall₂_same.mpr fun a _ => ⟨a.isPart_initial, rfl⟩

private theorem functions?_ownFunctions : functions? (ownFunctions mount accessors) =
    some (⟨.plain "new", paren [] ++ code "-> Self",
        code "Self" ++ brace (accessors.flatMap Accessor.initial)⟩ ::
      accessors.map (Accessor.function mount)) := by
  have hj : ownFunctions mount accessors =
      joined (newPart accessors :: accessors.map (Accessor.methodPart mount)) := by
    rw [ownFunctions, flatMap_eq_joined (Accessor.methodTokens mount) (Accessor.methodPart mount)
      fun _ => rfl]
    rfl
  rw [hj]
  refine bind_parts?_joined (.cons ⟨⟨fun _ _ => rfl, rfl⟩, rfl⟩ ?_)
  rw [List.forall₂_map_left_iff, List.forall₂_map_right_iff]
  exact List.forall₂_same.mpr fun a _ => ⟨a.isPart_method hm, rfl⟩

end

/-- What an arm that delegates has for its body. -/
def handover (function arguments : String) (method : Word) : List Token :=
  call (":: typemux :: core :: ObjectMapper :: " ++ function)
    (code "self ." ++ [.word method] ++ paren [] ++ code arguments)

def decodeBy (method : Word) : List Token := handover "decode_one" ", type_name , record" method

def encodeBy (method : Word) : List Token := handover "encode_one_as" ", object , type_name" method

def RouteArm.arm (by' : Word → List Token) (a : RouteArm) : Arm := ⟨.keys a.keys, by' a.method⟩

private theorem matchOn?_routes (function arguments : String)
    (hp : ∀ method, Passes endsArm {} {} (code "=>" ++ handover function arguments method))
    (hc : ∀ method, ∃ t ts, handover function arguments method = t :: ts) {arms : List RouteArm}
    (hk : ∀ a ∈ arms, a.keys ≠ []) :
    matchOn? "type_name" (code "match type_name" ++
        brace (arms.flatMap (RouteArm.tokens function arguments) ++ unmatchedArm)) =
      some (arms.map (RouteArm.arm (handover function arguments)) ++ [⟨.wildcard, unmatched⟩]) := by
  refine matchOn?_flatMap fun a ha => ⟨(alternatives a.keys ++ code "=>" ++
    handover function arguments a.method, .mark ',' .alone), rfl, ⟨?_, rfl⟩, ?_⟩
  · have hpass := passes_append (passes_alternatives a.keys) (hp a.method)
    rwa [← List.append_assoc] at hpass
  · obtain ⟨t, ts, hh⟩ := hc a.method
    rw [RouteArm.arm, hh]
    exact arm?_comma (hk a ha) t ts _ _

def defaultFunction : List Token :=
  call "fn default" [] ++ code "-> Self" ++ brace (call "Self :: new" [])

/-- The items of a dispatcher before those by which it converts objects. -/
def frontParts (type : Word) (mount : List Token) (accessors : List Accessor) : List Part :=
  [(rawDoc " Routes every schema type to the converter of the group that owns" ++
      rawDoc " it. Converters are built on first use and kept for the lifetime" ++
      rawDoc " of the dispatcher." ++ derive "Debug" ++ code "pub struct" ++ [.word type],
    .group .brace (accessors.flatMap (Accessor.slot mount))),
   (code "impl" ++ [.word type], .group .brace (ownFunctions mount accessors)),
   (code "impl :: std :: default :: Default for" ++ [.word type], .group .brace defaultFunction)]

/-- A function that gives a stream of what it makes of many items. -/
def streaming (name : String) (parameters item rest body : List Token) : Function where
  name := .plain name
  signature := code "< 'a , I >" ++ paren parameters ++
    code "-> impl :: std :: iter :: Iterator < Item = :: std :: result :: Result <" ++ paren item ++
    rest
  body := call ":: typemux :: core :: IndexedStream :: new" body

/-- The function by which many records are made objects of one type: each record is decoded when its
object is asked for. -/
def decodeMany : Function :=
  streaming "decode_many" (code "& 'a self , type_name : & 'a str , records : I ,")
    (code "usize , :: std :: boxed :: Box < dyn :: typemux :: core :: Payload >")
    (code ", :: typemux :: core :: MapperError , > , > + 'a where" ++
      code "I : :: std :: iter :: IntoIterator < Item = :: typemux :: core :: Record > + 'a ," ++
      code "I :: IntoIter : 'a ,")
    (code "records , move | record : :: typemux :: core :: Record |" ++
      brace (call ":: typemux :: core :: ObjectMapper :: decode_one"
        (code "self , type_name , record")) ++ code ",")

/-- The function by which many objects are made records: each object is encoded as its own type when
its record is asked for. -/
def encodeMany : Function :=
  streaming "encode_many" (code "& 'a self , objects : I ,")
    (code "usize , :: typemux :: core :: Record")
    (code ", :: typemux :: core :: MapperError > , > + 'a where" ++
      code "I : :: std :: iter :: IntoIterator + 'a , I :: IntoIter : 'a ," ++
      code "I :: Item : :: std :: borrow :: Borrow < dyn :: typemux :: core :: Payload > ,")
    (code "objects , move | object : I :: Item |" ++
      brace (call ":: typemux :: core :: ObjectMapper :: encode_one"
        (code "self ," ++ borrowed ++ paren (code "& object") ++ code ",")))

def functionPart (f : Function) : Part :=
  (code "fn" ++ [.word f.name] ++ f.signature, .group .brace f.body)

private theorem function?_functionPart (f : Function) : function? (functionPart f) = some f := rfl

/-- The type of the items stands in two brackets, which what follows it closes. -/
private theorem isPart_streaming (name : String) (parameters item body : List Token)
    {rest : List Token} (hr : Passes endsItem ⟨2, false⟩ {} rest) :
    IsPart endsItem (functionPart (streaming name parameters item rest body)) where
  passes := by
    have hname : Passes endsItem {} {} (code "fn" ++ [.word (.plain name)]) := fun _ _ => rfl
    have htype : Passes endsItem {} {} (code "< 'a , I >" ++ paren parameters) := fun _ _ => rfl
    have hopen : Passes endsItem {} ⟨2, false⟩
        (code "-> impl :: std :: iter :: Iterator < Item = :: std :: result :: Result <") :=
      fun _ _ => rfl
    have hitem : Passes endsItem ⟨2, false⟩ ⟨2, false⟩ (paren item) := fun _ _ => rfl
    exact passes_append hname (passes_append (passes_append (passes_append htype hopen) hitem) hr)
  ended := rfl

/-- How many objects are converted is one item, with a function for either direction. -/
theorem exists_batchPart (type : Word) :
    ∃ part functions, batchMapper type = part.1 ++ [part.2] ∧ IsPart endsItem part ∧
      entry? part =
        some (.implementation (code ":: typemux :: core :: BatchMapper") type functions) ∧
      functions? functions = some [decodeMany, encodeMany] := by
  refine ⟨(code "impl :: typemux :: core :: BatchMapper for" ++ [.word type],
    .group .brace (joined [functionPart decodeMany, functionPart encodeMany])), _, ?_,
    ⟨fun _ _ => rfl, rfl⟩, rfl, ?_⟩
  · have hdecode : code "fn decode_many < 'a , I >" =
        code "fn" ++ [.word (.plain "decode_many")] ++ code "< 'a , I >" := by rfl
    have hencode : code "fn encode_many < 'a , I >" =
        code "fn" ++ [.word (.plain "encode_many")] ++ code "< 'a , I >" := by rfl
    simp only [batchMapper, joined_cons, joined_nil, functionPart, decodeMany, encodeMany, streaming,
      hdecode, hencode, brace, List.append_assoc, List.cons_append, List.nil_append]
  · have hdecode : Passes endsItem ⟨2, false⟩ {}
        (code ", :: typemux :: core :: MapperError , > , > + 'a where" ++
          code "I : :: std :: iter :: IntoIterator < Item = :: typemux :: core :: Record > + 'a ," ++
          code "I :: IntoIter : 'a ,") :=
      passes_append (b := {}) (passes_append (b := {}) (fun _ _ => rfl) fun _ _ => rfl) fun _ _ => rfl
    have hencode : Passes endsItem ⟨2, false⟩ {}
        (code ", :: typemux :: core :: MapperError > , > + 'a where" ++
          code "I : :: std :: iter :: IntoIterator + 'a , I :: IntoIter : 'a ," ++
          code "I :: Item : :: std :: borrow :: Borrow < dyn :: typemux :: core :: Payload > ,") :=
      passes_append (b := {}) (passes_append (b := {}) (fun _ _ => rfl) fun _ _ => rfl) fun _ _ => rfl
    exact bind_parts?_joined (.cons ⟨isPart_streaming _ _ _ _ hdecode, function?_functionPart _⟩
      (.cons ⟨isPart_streaming _ _ _ _ hencode, function?_functionPart _⟩ .nil))

/-- The items of a dispatcher, as far as they are read. -/
theorem entries?_dispatcherType (type : Word) (mount : List Token) (accessors : List Accessor)
    (decode encode : List RouteArm) :
    ∃ entries body batch,
      entries? (dispatcherType type mount accessors decode encode) = some entries ∧
      only? (entries.filterMap Entry.struct?) =
        some (type, accessors.flatMap (Accessor.slot mount)) ∧
      only? (entries.filterMap (Entry.methods? type)) = some (ownFunctions mount accessors) ∧
      only? (entries.filterMap (Entry.implementation? objectTrait type)) = some body ∧
      (conversions? body = do
        let decode ← matchOn? "type_name" (code "match type_name" ++
          brace (decode.flatMap (RouteArm.tokens "decode_one" ", type_name , record") ++
            unmatchedArm))
        let encode ← matchOn? "type_name" (code "match type_name" ++
          brace (encode.flatMap (RouteArm.tokens "encode_one_as" ", object , type_name") ++
            unmatchedArm))
        return ⟨decode, encode⟩) ∧
      only? (entries.filterMap (Entry.implementation? DispatcherText.batchTrait type)) =
        some batch ∧
      functions? batch = some [decodeMany, encodeMany] := by
  obtain ⟨objectPart, body, hobjectPart, hisObject, hobject, hbody⟩ :=
    exists_objectPart "unused_variables , clippy :: match_single_binding" type
      (decode.flatMap (RouteArm.tokens "decode_one" ", type_name , record"))
      (encode.flatMap (RouteArm.tokens "encode_one_as" ", object , type_name"))
  obtain ⟨batchPart, batch, hbatchPart, hisBatch, hbatch, hmany⟩ := exists_batchPart type
  have hj : dispatcherType type mount accessors decode encode =
      joined (frontParts type mount accessors ++ [objectPart, batchPart]) := by
    rw [dispatcherType, hobjectPart, hbatchPart]
    simp only [frontParts, ownFunctions, defaultFunction, brace, joined_cons, joined_nil,
      List.append_assoc, List.cons_append, List.nil_append]
  have hentries : entries? (dispatcherType type mount accessors decode encode) = some [
      .struct type (accessors.flatMap (Accessor.slot mount)),
      .methods type (ownFunctions mount accessors),
      .implementation (code ":: std :: default :: Default") type defaultFunction,
      .implementation (code ":: typemux :: core :: ObjectMapper") type body,
      .implementation (code ":: typemux :: core :: BatchMapper") type batch] := by
    rw [hj]
    exact bind_parts?_joined (.cons ⟨⟨fun _ _ => rfl, rfl⟩, rfl⟩
      (.cons ⟨⟨fun _ _ => rfl, rfl⟩, rfl⟩ (.cons ⟨⟨fun _ _ => rfl, rfl⟩, rfl⟩
        (.cons ⟨hisObject, hobject⟩ (.cons ⟨hisBatch, hbatch⟩ .nil)))))
  have hdefault : Entry.words (code ":: std :: default :: Default") =
      [.plain "std", .plain "default", .plain "Default"] := by decide
  have hwords : Entry.words (code ":: typemux :: core :: BatchMapper") =
      DispatcherText.batchTrait := by decide
  have hobjectTrait : ¬ [.plain "std", .plain "default", .plain "Default"] = objectTrait := by decide
  have hbatchTrait : ¬ [.plain "std", .plain "default", .plain "Default"] =
      DispatcherText.batchTrait := by decide
  have hother : ¬ DispatcherText.batchTrait = objectTrait := by decide
  refine ⟨_, body, batch, hentries, rfl, ?_, ?_, hbody, ?_, hmany⟩
  · simp [List.filterMap_cons, Entry.methods?, only?]
  · simp [List.filterMap_cons, Entry.implementation?, only?, hdefault, words_objectMapper, hwords,
      hobjectTrait, hother]
  · simp [List.filterMap_cons, Entry.implementation?, only?, hdefault, words_objectMapper, hwords,
      hbatchTrait, Ne.symm hother]

/-- What the text of a dispatcher says that is made of accessors and arms. -/
def DispatcherText.made (type : Word) (mount : List Token) (accessors : List Accessor)
    (decode encode : List RouteArm) : DispatcherText where
  type
  slots := accessors.map fun a => (a.field,
    code ":: typemux :: core :: ConverterSlot <" ++ a.typePath mount ++ code ">")
  initials := accessors.map fun a => (a.field, call ":: typemux :: core :: ConverterSlot :: new" [])
  methods := accessors.map (Accessor.function mount)
  conversions := ⟨decode.map (RouteArm.arm decodeBy) ++ [⟨.wildcard, unmatched⟩],
    encode.map (RouteArm.arm encodeBy) ++ [⟨.wildcard, unmatched⟩]⟩
  batch := [decodeMany, encodeMany]

/-- The text of a dispatcher says what it was made of. -/
theorem of?_dispatcherType (type : Word) {mount : List Token} (hm : Balanced mount)
    {accessors : List Accessor} (hn : ∀ a ∈ accessors, a.method.is "new" = false)
    {decode encode : List RouteArm} (hd : ∀ a ∈ decode, a.keys ≠ [])
    (he : ∀ a ∈ encode, a.keys ≠ []) :
    DispatcherText.of? (dispatcherType type mount accessors decode encode) =
      some (.made type mount accessors decode encode) := by
  obtain ⟨entries, body, batch, hentries, hstruct, hmethods, hobject, hbody, hbatch, hmany⟩ :=
    entries?_dispatcherType type mount accessors decode encode
  have hdecode := matchOn?_routes "decode_one" ", type_name , record" (fun _ _ _ => rfl)
    (fun _ => ⟨_, _, rfl⟩) hd
  have hencode := matchOn?_routes "encode_one_as" ", object , type_name" (fun _ _ _ => rfl)
    (fun _ => ⟨_, _, rfl⟩) he
  rw [hdecode, hencode] at hbody
  have hinitials : DispatcherText.initials?
      (code "Self" ++ brace (accessors.flatMap Accessor.initial)) = _ := fields?_initials accessors
  have hnew : (Word.plain "new").is "new" = true := by decide
  have hfirst : accessors.filter (fun a => a.method.is "new") = [] := by
    rw [List.filter_eq_nil_iff]
    intro a ha
    simp [hn a ha]
  have hrest : accessors.filter (fun a => !a.method.is "new") = accessors := by
    rw [List.filter_eq_self]
    intro a ha
    simp [hn a ha]
  have hmade (signature body : List Token) : bodyOf? "new" (⟨.plain "new", signature, body⟩ ::
      accessors.map (Accessor.function mount)) = some body := by
    simp [bodyOf?, only?, List.filter_map, Function.comp_def, Accessor.function, hnew, hfirst]
  simp only [DispatcherText.of?, hentries, hstruct, hmethods, hobject, hbody, hbatch, hmany,
    functions?_ownFunctions hm, fields?_slots hm, hmade, hinitials, Option.bind_eq_bind,
    Option.bind_some, Option.pure_def, List.filter_cons, hnew, List.filter_map, Function.comp_def,
    Accessor.function, hrest]
  rfl

/-! Tables -/

namespace DispatcherText

variable (d : DispatcherText)

/-- That the dispatcher has a slot, its first value and a method for a group in its place, and that
the method makes the converter type of the group when it is first asked for. -/
def Serves (c : Config) (g : Group) (i : Nat) : Prop :=
  ∃ mount field method module type,
    Source.path? c.mount = some mount ∧
    Source.identifier? g.accessorName = some field ∧
    Source.identifier? (Naming.accessorMethod g.accessorName) = some method ∧
    Source.identifier? g.moduleName = some module ∧
    Source.identifier? g.converterName = some type ∧
    let converter := mount ++ code ":: mapper ::" ++ [.word module] ++ code "::" ++ [.word type]
    d.slots[i]? =
      some (field, code ":: typemux :: core :: ConverterSlot <" ++ converter ++ code ">") ∧
    d.initials[i]? = some (field, call ":: typemux :: core :: ConverterSlot :: new" []) ∧
    d.methods[i]? = some ⟨method, paren (code "& self") ++ code "-> &" ++ converter,
      code "self ." ++ [.word field] ++ call ". get_or_init" (converter ++ code ":: new")⟩

/-- That arms are those of a table: one for each case in order, which delegates to the method of its
group, and one for all other names at the end. -/
structure Routes (t : DispatchTable) (by' : Word → List Token) (arms : List Arm) : Prop where
  written : ∃ routed, arms = routed ++ [⟨.wildcard, unmatched⟩] ∧
    List.Forall₂ (fun (k : DispatchCase) arm => ∃ f, d.methods[k.group]? = some f ∧
      arm = ⟨.keys k.types, by' f.name⟩) t.cases routed
  routed : ∀ name g, t.groupOf name = some g →
    ∃ f, d.methods[g]? = some f ∧ chosen? arms name = some (by' f.name)
  unrouted : ∀ name, t.groupOf name = none → chosen? arms name = some unmatched

/-- That the text of a dispatcher does what a plan says. -/
structure Implements (p : Plan) (c : Config) : Prop where
  type : Source.identifier? c.dispatcher = some d.type
  slots_length : d.slots.length = p.groups.length
  initials_length : d.initials.length = p.groups.length
  methods_length : d.methods.length = p.groups.length
  serves : ∀ (i : Nat) g, p.groups[i]? = some g → d.Serves c g i
  decode : d.Routes p.tables.decode decodeBy d.conversions.decode
  encode : d.Routes p.tables.encode encodeBy d.conversions.encode
  same : ∀ name, p.tables.decode.groupOf name = p.tables.encode.groupOf name

end DispatcherText

private theorem routeArms_forall₂ {accessors : List Accessor} {t : DispatchTable}
    (h : ∀ k ∈ t.cases, k.group < accessors.length) :
    List.Forall₂ (fun (k : DispatchCase) r => ∃ a, accessors[k.group]? = some a ∧
      r = ⟨k.types, a.method⟩) t.cases (routeArms accessors t) := by
  obtain ⟨cases, index⟩ := t
  unfold routeArms
  induction cases with
  | nil => exact .nil
  | cons k cases ih =>
    obtain ⟨hk, hcases⟩ := List.forall_mem_cons.mp h
    have ha : accessors[k.group]? = some accessors[k.group] := List.getElem?_eq_getElem hk
    simp only [List.filterMap_cons, ha, Option.map_some]
    exact .cons ⟨_, ha, rfl⟩ (ih hcases)

section

variable {methods : List Function} {by' : Word → List Token} {cases : List DispatchCase}
  {arms : List Arm}

/-- If a name is in cases of one group only, the first arm for it delegates to that group. -/
theorem chosen?_routed
    (h : List.Forall₂ (fun (k : DispatchCase) arm => ∃ f, methods[k.group]? = some f ∧
      arm = ⟨.keys k.types, by' f.name⟩) cases arms) {name : String} {g : Nat}
    (hg : ∀ k ∈ cases, name ∈ k.types → k.group = g) (hm : ∃ k ∈ cases, name ∈ k.types)
    (more : List Arm) :
    ∃ f, methods[g]? = some f ∧ chosen? (arms ++ more) name = some (by' f.name) := by
  induction h with
  | nil => exact absurd hm (by simp)
  | @cons k arm cases arms hk _ ih =>
    obtain ⟨f, hf, rfl⟩ := hk
    rw [List.cons_append, chosen?_cons]
    -- a name that this case does not have is left to the arms after it
    by_cases hn : name ∈ k.types
    · have hkg := hg k List.mem_cons_self hn
      exact ⟨f, hkg ▸ hf, by simp [Pattern.covers, hn]⟩
    · have hrest : ∃ k ∈ cases, name ∈ k.types := by
        obtain ⟨l, hl, hln⟩ := hm
        rcases List.mem_cons.mp hl with rfl | hl
        · exact absurd hln hn
        · exact ⟨l, hl, hln⟩
      obtain ⟨f', hf', hc⟩ := ih (fun k hk => hg k (List.mem_cons_of_mem _ hk)) hrest
      exact ⟨f', hf', by simpa [Pattern.covers, hn] using hc⟩

private theorem chosen?_unrouted
    (h : List.Forall₂ (fun (k : DispatchCase) arm => ∃ f, methods[k.group]? = some f ∧
      arm = ⟨.keys k.types, by' f.name⟩) cases arms) {name : String}
    (hn : ∀ k ∈ cases, name ∉ k.types) (more : List Arm) :
    chosen? (arms ++ more) name = chosen? more name := by
  induction h with
  | nil => rfl
  | @cons k arm cases arms hk _ ih =>
    obtain ⟨f, _, rfl⟩ := hk
    obtain ⟨hk, hcases⟩ := List.forall_mem_cons.mp hn
    rw [List.cons_append, chosen?_cons, ← ih hcases]
    simp [Pattern.covers, hk]

end

open DispatchTables (casesOf)
open Ownership (resolve claimant? claimant?_lt mem_ownedBy_resolve)

theorem mem_casesOf {groups : List Group} {k : DispatchCase}
    (h : k ∈ casesOf (resolve groups) (List.range groups.length)) :
    k.group < groups.length ∧ k.types ≠ [] ∧
      ∀ name, name ∈ k.types ↔ claimant? groups name = some k.group := by
  obtain ⟨g, hg, rfl⟩ := List.mem_map.mp h
  obtain ⟨hlt, hne⟩ := List.mem_filter.mp hg
  refine ⟨List.mem_range.mp hlt, by simpa using hne, fun name => ?_⟩
  rw [Ownership.claimant?_eq_some_iff]
  exact Plan.mem_ownedBy_map_text groups g name

/-- The arms for a table that is made from who owns what. -/
theorem routes_of_resolve {groups : List Group} {mount : List Token} {accessors : List Accessor}
    {d : DispatcherText} (hm : d.methods = accessors.map (Accessor.function mount))
    (hl : accessors.length = groups.length) {t : DispatchTable}
    (hc : t.cases = casesOf (resolve groups) (List.range groups.length))
    (ht : ∀ name, t.groupOf name = claimant? groups name) (by' : Word → List Token) :
    d.Routes t by' ((routeArms accessors t).map (RouteArm.arm by') ++ [⟨.wildcard, unmatched⟩]) := by
  have hwritten : List.Forall₂ (fun (k : DispatchCase) arm => ∃ f, d.methods[k.group]? = some f ∧
      arm = ⟨.keys k.types, by' f.name⟩) t.cases
      ((routeArms accessors t).map (RouteArm.arm by')) := by
    rw [List.forall₂_map_right_iff]
    refine (routeArms_forall₂ fun k hk => ?_).imp ?_
    · rw [hl]
      exact (mem_casesOf (hc ▸ hk)).1
    · rintro k r ⟨a, ha, rfl⟩
      exact ⟨a.function mount, by rw [hm, List.getElem?_map, ha, Option.map_some], rfl⟩
  constructor
  case written => exact ⟨_, rfl, hwritten⟩
  case routed =>
    intro name g hg
    rw [ht] at hg
    refine chosen?_routed hwritten ?_ ?_ _
    · intro k hk hn
      have hkg := ((mem_casesOf (hc ▸ hk)).2.2 name).mp hn
      exact Option.some.inj (hkg.symm.trans hg)
    · have ho := (mem_ownedBy_resolve groups g ⟨name⟩).mpr hg
      have hne : !((resolve groups).ownedBy g).isEmpty := by
        cases hown : (resolve groups).ownedBy g with
        | nil => simp [hown] at ho
        | cons p ps => rfl
      refine ⟨⟨g, ((resolve groups).ownedBy g).map SchemaPath.text⟩, ?_, List.mem_map_of_mem ho⟩
      rw [hc]
      exact List.mem_map_of_mem
        (List.mem_filter.mpr ⟨List.mem_range.mpr (claimant?_lt hg), hne⟩)
  case unrouted =>
    intro name hn
    rw [ht] at hn
    refine chosen?_unrouted hwritten (fun k hk hmem => ?_) _
    have hkg := ((mem_casesOf (hc ▸ hk)).2.2 name).mp hmem
    rw [hn] at hkg
    cases hkg

private theorem method_ne_new {g : Group} {a : Accessor} (h : accessor g = .ok a) :
    a.method.is "new" = false := by
  obtain ⟨_, hf, hmethod, _⟩ := accessor_eq_ok_iff.mp h
  rw [Source.identifier?_accessorMethod hf] at hmethod
  split at hmethod
  · have hne : Naming.accessorMethod a.field.text ≠ "new" := by
      intro he
      have hl := congrArg String.toList he
      simp [Naming.accessorMethod] at hl
    rw [← Option.some.inj hmethod]
    simp [Word.is, Word.plain, hne]
  · cases hmethod

section

variable {m : Model} {ask : Introspector} {c : Config} {p : Plan} {ts : List Token}

/-- The text of the dispatcher of a plan is made of one accessor for each group. -/
theorem of?_dispatcher (h : (Plan.make m ask c).2 = .ok p) (hts : dispatcher p c = .ok ts) :
    ∃ type mount accessors, Source.identifier? c.dispatcher = some type ∧
      Source.path? c.mount = some mount ∧
      List.Forall₂ (fun g a => accessor g = .ok a) m.groups accessors ∧
      DispatcherText.of? ts = some (.made type mount accessors
        (routeArms accessors p.tables.decode) (routeArms accessors p.tables.encode)) := by
  obtain ⟨type, mount, accessors, htype, hmount, ha, rfl⟩ := dispatcher_eq_ok_iff.mp hts
  obtain ⟨_, tables, hb, rfl⟩ := Plan.make_eq_ok h
  obtain ⟨tables', hb', hcd, hce, _, _⟩ := DispatchTables.build_resolve m.groups
  rw [hb] at hb'
  cases hb'
  have hn : ∀ a ∈ accessors, a.method.is "new" = false := by
    intro a hmem
    obtain ⟨_, _, hok⟩ := Traversal.exists_of_mem_left ha.flip hmem
    exact method_ne_new hok
  have hkeys (t : DispatchTable)
      (hc : t.cases = casesOf (resolve m.groups) (List.range m.groups.length)) :
      ∀ r ∈ routeArms accessors t, r.keys ≠ [] := by
    intro r hr
    obtain ⟨k, hk, hkr⟩ := List.mem_filterMap.mp hr
    obtain ⟨a, _, rfl⟩ := Option.map_eq_some_iff.mp hkr
    exact (mem_casesOf (hc ▸ hk)).2.1
  exact ⟨type, mount, accessors, htype, hmount, ha,
    of?_dispatcherType type (Source.balanced_path? hmount) hn (hkeys _ hcd) (hkeys _ hce)⟩

/-- The dispatcher of a plan can be read, and does what the plan says: for every group there is one
slot, one first value and one method, and both directions route every name as the tables do. -/
theorem dispatcher_implements (h : (Plan.make m ask c).2 = .ok p)
    (hts : dispatcher p c = .ok ts) :
    ∃ d, DispatcherText.of? ts = some d ∧ d.Implements p c := by
  obtain ⟨type, mount, accessors, htype, hmount, ha, hd⟩ := of?_dispatcher h hts
  obtain ⟨_, tables, hb, rfl⟩ := Plan.make_eq_ok h
  obtain ⟨tables', hb', hcd, hce, hrd, hre⟩ := DispatchTables.build_resolve m.groups
  rw [hb] at hb'
  cases hb'
  have hl : accessors.length = m.groups.length := ha.length_eq.symm
  refine ⟨_, hd, ?_⟩
  constructor
  case type => exact htype
  case slots_length => exact (List.length_map _).trans hl
  case initials_length => exact (List.length_map _).trans hl
  case methods_length => exact (List.length_map _).trans hl
  case serves =>
    intro i g hg
    obtain ⟨hi, rfl⟩ := List.getElem?_eq_some_iff.mp hg
    have hi' : i < accessors.length := hl.symm ▸ hi
    obtain ⟨_, hf, hmethod, hmodule, hconverter⟩ := accessor_eq_ok_iff.mp (ha.get hi hi')
    refine ⟨mount, _, _, _, _, hmount, hf, hmethod, hmodule, hconverter, ?_, ?_, ?_⟩ <;>
      rw [DispatcherText.made, List.getElem?_map, List.getElem?_eq_getElem hi'] <;> rfl
  case decode => exact routes_of_resolve rfl hl hcd hrd decodeBy
  case encode => exact routes_of_resolve rfl hl hce hre encodeBy
  case same => exact fun name => (hrd name).trans (hre name).symm

end

/-- A model with a comment and a quote in a claim, and a group that owns nothing. -/
def commented : Model where
  groups := [⟨"a", none, [⟨"x::/* \"*/ Y"⟩, ⟨"W"⟩]⟩, ⟨"b", none, [⟨"W"⟩]⟩, ⟨"c", some "d", [⟨"Z"⟩]⟩]
  types := [("W", .unit), ("Z", .tuple 2), ("x::/* \"*/ Y", .named ["x"])]

theorem dispatcher_implements_commented :
    ∃ p ts, (Plan.make commented commented.types.introspector {mount := "crate::a<b, c>"}).2 = .ok p ∧
      dispatcher p {mount := "crate::a<b, c>"} = .ok ts ∧
      ∃ d, DispatcherText.of? ts = some d ∧ d.Implements p {mount := "crate::a<b, c>"} := by
  obtain ⟨p, hp⟩ : ∃ p, (Plan.make commented commented.types.introspector
      {mount := "crate::a<b, c>"}).2 = .ok p :=
    Plan.exists_make_eq_ok (by decide +kernel) (by decide +kernel) (by decide +kernel)
  obtain ⟨ts, hts⟩ := exists_dispatcher_eq_ok hp (by decide +kernel)
  exact ⟨p, ts, hp, hts, dispatcher_implements hp hts⟩

end Switchboard.Emission
