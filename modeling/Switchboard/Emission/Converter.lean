import Switchboard.Emission.Code
import Switchboard.Emission.Error
import Switchboard.Plan.Arity
import Switchboard.Source.File

/-! Converters: the source text that maps the types of one group to records and back, field by
field. -/

namespace Switchboard.Emission

open Source (Token Word)

/-- A part of an object: a field with a name, or a place in a tuple. -/
inductive Member
  | field (name : Word)
  | place (index : Nat)
deriving DecidableEq, Repr

/-- The member as it is written. -/
def Member.tokens : Member → List Token
  | .field name => [.word name]
  | .place index => [.literal (toString index)]

/-- A word that a text must be. -/
def word (what text : String) : Except EmissionError Word :=
  match Source.identifier? text with
  | some w => .ok w
  | none => .error (.unfit what text)

/-- The tokens of a path that a text must be. -/
def path (what text : String) : Except EmissionError (List Token) :=
  match Source.path? text with
  | some ts => .ok ts
  | none => .error (.unfit what text)

/-- The member of a field. One with the name of a keyword is written raw. -/
def fieldMember (name : String) : Except EmissionError Member :=
  match Source.field? name with
  | some w => .ok (.field w)
  | none => .error (.unfit "field name" name)

/-- The members that the parameters of a constructor fill, in order. The number of a place is less
than the greatest of 32 bits. -/
def members : Constructor → Except EmissionError (List Member)
  | .named fields => fields.mapM fieldMember
  | .tuple arity =>
    if arity < Nat.pow 2 32 then .ok ((List.range arity).map .place)
    else .error (.unplaceable (Nat.pow 2 32 - 1))
  | .unit => .ok []

/-- What the converter does with one type in both directions. -/
structure ConverterArm where
  key : String
  type : List Token
  named : Bool
  /-- The record key of each member that is converted, nothing if the type is made from nothing. -/
  fields : Option (List (String × Member))
deriving Repr

/-- The arm of a type that is converted field by field. -/
def mappedArm (m : MappedType) : Except EmissionError ConverterArm := do
  let type ← path "type path" m.path.text
  let found ← members m.constructor
  let named := match m.constructor with
    | .named _ => true
    | _ => false
  return ⟨m.path.text, type, named, some (m.constructor.params.zip found)⟩

/-- The arm of a type that is made from nothing. -/
def fieldlessArm (p : SchemaPath) : Except EmissionError ConverterArm := do
  return ⟨p.text, ← path "type path" p.text, true, none⟩

/-- The arms of a converter file: the types that are converted field by field, then the others. -/
def converterArms (f : ConverterFile) : Except EmissionError (List ConverterArm) := do
  return (← f.mapped.mapM mappedArm) ++ (← f.fieldless.mapM fieldlessArm)

namespace ConverterArm

def keyTokens (a : ConverterArm) : List Token := [.string a.key] ++ code "=>"

/-- The value that is read for one member. -/
def taken (key : String) : List Token :=
  code "fields . take" ++ paren [.string key] ++ code "?"

/-- The statement that writes one member. -/
def put (entry : String × Member) : List Token :=
  code "record . put" ++ paren ([.string entry.1] ++ code ", & object ." ++ entry.2.tokens) ++
    code "? ;"

/-- The object made from the values that are read. -/
def construct (a : ConverterArm) (fields : List (String × Member)) : List Token :=
  a.type ++
    if a.named then
      brace (fields.flatMap fun entry => entry.2.tokens ++ code ":" ++ taken entry.1 ++ code ",")
    else paren (fields.flatMap fun entry => taken entry.1 ++ code ",")

def boxed (object : List Token) : List Token :=
  call ":: std :: result :: Result :: Ok" (call ":: std :: boxed :: Box :: new" object)

/-- An object that must be of the arm's type. -/
def downcast (a : ConverterArm) : List Token :=
  code ":: typemux :: core :: downcast_payload :: <" ++ a.type ++ code ">" ++
    paren (code "object , type_name")

/-- The arm that makes an object from a record. -/
def decode (a : ConverterArm) : List Token :=
  a.keyTokens ++
    match a.fields with
    | some fields =>
      brace
        (call "let mut fields = :: typemux :: core :: Fields :: new" (code "type_name , record") ++
          code ";" ++ boxed (a.construct fields))
    | none => boxed (a.type ++ brace []) ++ code ","

/-- The arm that makes a record from an object. -/
def encode (a : ConverterArm) : List Token :=
  a.keyTokens ++
    match a.fields with
    | some fields =>
      brace (code "let object =" ++ a.downcast ++ code "? ;" ++
        call "let mut record = :: typemux :: core :: RecordBuilder :: new" (code "type_name") ++
        code ";" ++ fields.flatMap put ++
        call ":: std :: result :: Result :: Ok" (call "record . finish" []))
    | none =>
      a.downcast ++
        call ". map" (call "| _ | :: typemux :: core :: Record :: new" []) ++ code ","

end ConverterArm

/-- The converter type of a group, with arms for its types. -/
def converter (group : String) (type : Word) (arms : List ConverterArm) : List Token :=
  doc s!" Converter for the `{group}` group." ++ derive "Clone , Copy , Debug , Default" ++
    code "pub struct" ++ [.word type] ++ code ";" ++
    code "impl" ++ [.word type] ++ brace
      (mustUse ++ call "pub const fn new" [] ++ code "-> Self" ++ brace (code "Self")) ++
    objectMapper "unused_variables , unused_mut , clippy :: match_single_binding" type
      (arms.flatMap ConverterArm.decode) (arms.flatMap ConverterArm.encode)

/-- A way to make the source text of a converter. -/
abbrev Emitter := ConverterFile → Except EmissionError (List Token)

/-- The converter that maps fields to record keys. -/
def fieldMapper : Emitter := fun f => do
  let type ← word "mapper type" f.converter
  return converter f.name type (← converterArms f)

end Switchboard.Emission
