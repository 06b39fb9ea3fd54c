import Switchboard.Conversion.Record

/-! Converters: what makes objects from records and records from objects, by type names. -/

namespace Switchboard

/-- Conversion in both directions. An object may be written as another type than its own. -/
structure Converter (ω : Type) where
  decode : (type : String) → Record → Except ConversionError ω
  encodeAs : ω → (type : String) → Except ConversionError Record

/-- Objects that know the name of their type. -/
class Typed (ω : Type) where
  typeName : ω → String

/-- The record of an object as its own type. -/
def Converter.encode [Typed ω] (c : Converter ω) (object : ω) : Except ConversionError Record :=
  c.encodeAs object (Typed.typeName object)

/-- A type that a converter has: how its objects are made from fields, and the values of the fields
of an object, nothing for one of another type. -/
structure ConvertedType (ω : Type) where
  name : String
  read : Fields → Except ConversionError ω
  values : ω → Option (List (String × Storable))

namespace Converter

/-- The converter of some types. -/
def ofTypes [Typed ω] (types : List (ConvertedType ω)) : Converter ω where
  decode type r :=
    match types.find? fun t => t.name == type with
    | some t => t.read ⟨type, r⟩
    | none => .error (.unmatched type)
  encodeAs object type :=
    match types.find? fun t => t.name == type with
    | some t =>
      match t.values object with
      | some values => RecordBuilder.putAll { type } values
      | none => .error (.typeMismatch type (Typed.typeName object))
    | none => .error (.unmatched type)

end Converter

end Switchboard
