import Switchboard.Conversion.Converter
import Switchboard.Schema.Constructor

/-! A small schema of pets and people, with converters as they are generated for it. -/

namespace Switchboard.Sample

structure Pet where
  name : String
  age : UInt8
  nickname : Option String
deriving DecidableEq, Repr

/-- One who has pets, by their names. -/
structure Owner where
  name : String
  pets : List String
deriving DecidableEq, Repr

/-- Where someone lives. It is not claimed itself. -/
structure Address where
  city : String
  zip : String
deriving DecidableEq, Repr

/-- Someone who lives somewhere. -/
structure Person where
  name : String
  address : Address
deriving DecidableEq, Repr

/-- A text with a number. -/
structure Pair where
  left : String
  right : Int64
deriving DecidableEq

/-- A type whose fields are named like keywords. -/
structure Keyword where
  type : String
  found : Bool
deriving DecidableEq, Repr

/-- An object of the schema, or of a type that nobody claims. -/
inductive Object
  | pet (p : Pet)
  | owner (o : Owner)
  | tag
  | person (p : Person)
  | pair (p : Pair)
  | keyword (k : Keyword)
  | marker
  | stranger (type : String)
deriving DecidableEq

def module : String := "typemux_testing_fixtures::schema::"

def Object.typeName : Object → String
  | .pet _ => module ++ "Pet"
  | .owner _ => module ++ "Owner"
  | .tag => module ++ "Tag"
  | .person _ => module ++ "Person"
  | .pair _ => module ++ "Pair"
  | .keyword _ => module ++ "Keyword"
  | .marker => module ++ "Marker"
  | .stranger type => type

instance : Typed Object := ⟨Object.typeName⟩

def byteReader : Json.Reader UInt8
  | o, t => do return UInt8.ofNat (← Json.Reader.integer "u8" 0 255 o t).toNat

def int64Reader : Json.Reader Int64
  | o, t => do
    let value ← Json.Reader.integer "i64" Bounds.signedLeast Bounds.signedGreatest o t
    return Int64.ofInt value

namespace Address

def toJson (a : Address) : Json := .object [("city", .string a.city), ("zip", .string a.zip)]

structure Draft where
  city : Option String := none
  zip : Option String := none

/-- Reads the JSON form: an object, or an array of the fields in order. -/
def reader : Json.Reader Address
  | o, .object found ending => do
    let step (d : Draft) (key : String) (t : Json.Tree) : Except Json.Problem Draft := do
      match key with
      | "city" => return { d with city := ← Json.Reader.field .string o key d.city t }
      | "zip" => return { d with zip := ← Json.Reader.field .string o key d.zip t }
      | _ => return d
    let d ← Json.Reader.entries step {} found ending
    return ⟨← Json.Reader.required "city" d.city, ← Json.Reader.required "zip" d.zip⟩
  | o, .array items ending => do
    let expected := "struct Address with 2 elements"
    let city ← Json.Reader.item .string o expected items ending 0
    let zip ← Json.Reader.item .string o expected items ending 1
    Json.Reader.closeAfter o 2 items ending
    return ⟨city, zip⟩
  | _, t => Json.Reader.reject "struct Address" t

end Address

/-! Fields and structs -/

/-- The types that the fields of structs have. -/
inductive FieldType
  | string | byte | integer | bool | optional | strings | address
deriving DecidableEq, Repr

namespace FieldType

/-- What the values of a type are. -/
abbrev Value : FieldType → Type
  | .string => String
  | .byte => UInt8
  | .integer => Int64
  | .bool => Bool
  | .optional => Option String
  | .strings => List String
  | .address => Address

def reader : (t : FieldType) → Json.Reader t.Value
  | .string => .string
  | .byte => byteReader
  | .integer => int64Reader
  | .bool => .bool
  | .optional => .option .string
  | .strings => .list .string
  | .address => Address.reader

/-- A value as it is put into a record. -/
def store : (t : FieldType) → t.Value → Storable
  | .string, s => .json (.string s)
  | .byte, n => .whole n.toNat
  | .integer, n => .whole n.toInt
  | .bool, b => .json (.bool b)
  | .optional, o => .json (.optional .string o)
  | .strings, l => .json (.strings l)
  | .address, a => .json a.toJson

end FieldType

/-- A field: the key of its value in a record, and its type. -/
structure Field where
  key : String
  type : FieldType
deriving DecidableEq, Repr

/-- A value for each of some fields. -/
abbrev Values : List Field → Type
  | [] => Unit
  | field :: rest => field.type.Value × Values rest

/-- Takes the values of fields from a record, one after the other. An error ends it. -/
def takeValues : (fields : List Field) → Fields → Except ConversionError (Values fields)
  | [], _ => .ok ()
  | field :: rest, f =>
    f.andThen field.type.reader field.key fun value f => (takeValues rest f).map (value, ·)

/-- The values of fields as they are put into a record. -/
def storeValues : (fields : List Field) → Values fields → List (String × Storable)
  | [], _ => []
  | field :: rest, (value, values) => (field.key, field.type.store value) :: storeValues rest values

/-- How the fields of a struct are told apart: by names, by places, or not at all. -/
inductive Shape
  | named | places | bare
deriving DecidableEq, Repr

/-- The constructor of a struct whose fields have some keys. -/
def Shape.constructor (keys : List String) : Shape → Constructor
  | .named => .named keys
  | .places => .tuple keys.length
  | .bare => .unit

/-- A struct of the schema. Its fields are listed once: what is taken to make an object of it and
what is put of one are read off the list. -/
structure Struct where
  name : String
  shape : Shape
  fields : List Field
  make : Values fields → Object
  /-- The values of an object, nothing for one of another struct. -/
  values? : Object → Option (Values fields)
  params : (shape.constructor (fields.map Field.key)).params = fields.map Field.key
  distinct : (fields.map Field.key).Nodup
  typeName : ∀ values, (make values).typeName = module ++ name
  values?_make : ∀ values, values? (make values) = some values
  make_of_values? : ∀ o values, values? o = some values → make values = o

namespace Struct

/-- The name of the type, with the modules that it is in. -/
def path (s : Struct) : String := module ++ s.name

def constructor (s : Struct) : Constructor := s.shape.constructor (s.fields.map Field.key)

/-- How objects of the struct are converted: field by field, in order. -/
def converted (s : Struct) : ConvertedType Object where
  name := s.path
  read f := (takeValues s.fields f).map s.make
  values o := (s.values? o).map (storeValues s.fields)

def pet : Struct where
  name := "Pet"
  shape := .named
  fields := [⟨"name", .string⟩, ⟨"age", .byte⟩, ⟨"nickname", .optional⟩]
  make | (name, age, nickname, ()) => .pet ⟨name, age, nickname⟩
  values?
    | .pet p => some (p.name, p.age, p.nickname, ())
    | _ => none
  params := rfl
  distinct := by decide
  typeName _ := rfl
  values?_make _ := rfl
  make_of_values? o _ h := by cases o <;> cases h; rfl

def owner : Struct where
  name := "Owner"
  shape := .named
  fields := [⟨"name", .string⟩, ⟨"pets", .strings⟩]
  make | (name, pets, ()) => .owner ⟨name, pets⟩
  values?
    | .owner o => some (o.name, o.pets, ())
    | _ => none
  params := rfl
  distinct := by decide
  typeName _ := rfl
  values?_make _ := rfl
  make_of_values? o _ h := by cases o <;> cases h; rfl

/-- Tags, which are made from nothing and have no place for fields. -/
def tag : Struct where
  name := "Tag"
  shape := .bare
  fields := []
  make _ := .tag
  values?
    | .tag => some ()
    | _ => none
  params := rfl
  distinct := by decide
  typeName _ := rfl
  values?_make _ := rfl
  make_of_values? o _ h := by cases o <;> cases h; rfl

def person : Struct where
  name := "Person"
  shape := .named
  fields := [⟨"name", .string⟩, ⟨"address", .address⟩]
  make | (name, address, ()) => .person ⟨name, address⟩
  values?
    | .person p => some (p.name, p.address, ())
    | _ => none
  params := rfl
  distinct := by decide
  typeName _ := rfl
  values?_make _ := rfl
  make_of_values? o _ h := by cases o <;> cases h; rfl

/-- Pairs, whose parts have places for names. -/
def pair : Struct where
  name := "Pair"
  shape := .places
  fields := [⟨"0", .string⟩, ⟨"1", .integer⟩]
  make | (left, right, ()) => .pair ⟨left, right⟩
  values?
    | .pair p => some (p.left, p.right, ())
    | _ => none
  params := by decide
  distinct := by decide
  typeName _ := rfl
  values?_make _ := rfl
  make_of_values? o _ h := by cases o <;> cases h; rfl

def keyword : Struct where
  name := "Keyword"
  shape := .named
  fields := [⟨"type", .string⟩, ⟨"match", .bool⟩]
  make | (type, found, ()) => .keyword ⟨type, found⟩
  values?
    | .keyword k => some (k.type, k.found, ())
    | _ => none
  params := rfl
  distinct := by decide
  typeName _ := rfl
  values?_make _ := rfl
  make_of_values? o _ h := by cases o <;> cases h; rfl

/-- Markers, which are made from nothing but have a place for fields. -/
def marker : Struct where
  name := "Marker"
  shape := .named
  fields := []
  make _ := .marker
  values?
    | .marker => some ()
    | _ => none
  params := rfl
  distinct := by decide
  typeName _ := rfl
  values?_make _ := rfl
  make_of_values? o _ h := by cases o <;> cases h; rfl

end Struct

/-- The groups that claim the types of the schema. -/
inductive Member
  | pets | people | shadow | keywords
deriving DecidableEq, Repr

namespace Member

/-- The structs that a group owns. The third claims only what is owned already. -/
def structs : Member → List Struct
  | .pets => [.pet, .owner, .tag]
  | .people => [.person, .pair]
  | .shadow => []
  | .keywords => [.keyword, .marker]

/-- The types that the converter of a group has. -/
def types (m : Member) : List (ConvertedType Object) := m.structs.map Struct.converted

/-- The converter of a group. -/
def converter (m : Member) : Converter Object := .ofTypes m.types

end Member

end Switchboard.Sample
