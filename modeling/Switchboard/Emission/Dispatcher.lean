import Switchboard.Emission.Converter
import Switchboard.Plan

/-! The dispatcher: the source text that routes each type name to the converter of the group that
owns the type. -/

namespace Switchboard.Emission

open Source (Token Word)

/-- What the dispatcher has for one group. -/
structure Accessor where
  group : String
  field : Word
  method : Word
  module : Word
  converter : Word
deriving DecidableEq, Repr

/-- What the dispatcher has for a group. -/
def accessor (g : Group) : Except EmissionError Accessor := do
  let field ← word "accessor" g.accessorName
  let method ← word "accessor method" (Naming.accessorMethod g.accessorName)
  let module ← word "module" g.moduleName
  let converter ← word "mapper type" g.converterName
  return { group := g.name, field, method, module, converter }

/-- The type names of one case with the method that they are delegated to. -/
structure RouteArm where
  keys : List String
  method : Word
deriving DecidableEq, Repr

/-- The arms for the cases of a table. A case of a group that is not there has none. -/
def routeArms (accessors : List Accessor) (t : DispatchTable) : List RouteArm :=
  t.cases.filterMap fun c => (accessors[c.group]?).map fun a => ⟨c.types, a.method⟩

/-- What stands between alternatives. -/
def alternatives : List String → List Token
  | [] => []
  | [key] => [.string key]
  | key :: rest => [.string key] ++ code "|" ++ alternatives rest

/-- An arm that delegates to a function of the converter. -/
def RouteArm.tokens (function arguments : String) (a : RouteArm) : List Token :=
  alternatives a.keys ++ code "=>" ++
    call (":: typemux :: core :: ObjectMapper :: " ++ function)
      (code "self ." ++ [.word a.method] ++ paren [] ++ code arguments) ++ code ","

namespace Accessor

/-- The converter type with the modules that it is in. -/
def typePath (mount : List Token) (a : Accessor) : List Token :=
  mount ++ code ":: mapper ::" ++ [.word a.module] ++ code "::" ++ [.word a.converter]

def slot (mount : List Token) (a : Accessor) : List Token :=
  [.word a.field] ++ code ": :: typemux :: core :: ConverterSlot <" ++ a.typePath mount ++
    code "> ,"

def initial (a : Accessor) : List Token :=
  [.word a.field] ++ call ": :: typemux :: core :: ConverterSlot :: new" [] ++ code ","

/-- The method that makes the converter when it is first asked for. -/
def methodTokens (mount : List Token) (a : Accessor) : List Token :=
  doc s!" Converter for the `{a.group}` group, built on first use." ++ mustUse ++
    code "pub fn" ++ [.word a.method] ++ paren (code "& self") ++ code "-> &" ++ a.typePath mount ++
    brace (code "self ." ++ [.word a.field] ++
      call ". get_or_init" (a.typePath mount ++ code ":: new"))

end Accessor

/-- The function that lends the object of an item. -/
def borrowed : List Token :=
  code "< I :: Item as :: std :: borrow :: Borrow < dyn :: typemux :: core :: Payload >> :: borrow"

/-- How the dispatcher converts many objects, each when it is asked for. -/
def batchMapper (type : Word) : List Token :=
  code "impl :: typemux :: core :: BatchMapper for" ++ [.word type] ++ brace
    (code "fn decode_many < 'a , I >" ++
      paren (code "& 'a self , type_name : & 'a str , records : I ,") ++
      code "-> impl :: std :: iter :: Iterator < Item = :: std :: result :: Result <" ++
      paren (code "usize , :: std :: boxed :: Box < dyn :: typemux :: core :: Payload >") ++
      code ", :: typemux :: core :: MapperError , > , > + 'a where" ++
      code "I : :: std :: iter :: IntoIterator < Item = :: typemux :: core :: Record > + 'a ," ++
      code "I :: IntoIter : 'a ," ++
      brace (call ":: typemux :: core :: IndexedStream :: new"
        (code "records , move | record : :: typemux :: core :: Record |" ++
          brace (call ":: typemux :: core :: ObjectMapper :: decode_one"
            (code "self , type_name , record")) ++ code ",")) ++
    code "fn encode_many < 'a , I >" ++
      paren (code "& 'a self , objects : I ,") ++
      code "-> impl :: std :: iter :: Iterator < Item = :: std :: result :: Result <" ++
      paren (code "usize , :: typemux :: core :: Record") ++
      code ", :: typemux :: core :: MapperError > , > + 'a where" ++
      code "I : :: std :: iter :: IntoIterator + 'a , I :: IntoIter : 'a ," ++
      code "I :: Item : :: std :: borrow :: Borrow < dyn :: typemux :: core :: Payload > ," ++
      brace (call ":: typemux :: core :: IndexedStream :: new"
        (code "objects , move | object : I :: Item |" ++
          brace (call ":: typemux :: core :: ObjectMapper :: encode_one"
            (code "self ," ++ borrowed ++ paren (code "& object") ++ code ",")))))

/-- The dispatcher type, with a slot for each group and an arm for each case. -/
def dispatcherType (type : Word) (mount : List Token) (accessors : List Accessor)
    (decode encode : List RouteArm) : List Token :=
  rawDoc " Routes every schema type to the converter of the group that owns" ++
  rawDoc " it. Converters are built on first use and kept for the lifetime" ++
  rawDoc " of the dispatcher." ++ derive "Debug" ++
  code "pub struct" ++ [.word type] ++ brace (accessors.flatMap (Accessor.slot mount)) ++
  code "impl" ++ [.word type] ++ brace
    (mustUse ++ call "pub const fn new" [] ++ code "-> Self" ++
      brace (code "Self" ++ brace (accessors.flatMap Accessor.initial)) ++
      accessors.flatMap (Accessor.methodTokens mount)) ++
  code "impl :: std :: default :: Default for" ++ [.word type] ++ brace
    (call "fn default" [] ++ code "-> Self" ++ brace (call "Self :: new" [])) ++
  objectMapper "unused_variables , clippy :: match_single_binding" type
    (decode.flatMap (RouteArm.tokens "decode_one" ", type_name , record"))
    (encode.flatMap (RouteArm.tokens "encode_one_as" ", object , type_name")) ++
  batchMapper type

def dispatcher (p : Plan) (c : Config) : Except EmissionError (List Token) := do
  let type ← word "dispatcher type" c.dispatcher
  let mount ← path "namespace" c.mount
  let accessors ← p.groups.mapM accessor
  return dispatcherType type mount accessors (routeArms accessors p.tables.decode)
    (routeArms accessors p.tables.encode)

end Switchboard.Emission
