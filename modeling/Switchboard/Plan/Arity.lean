import Switchboard.Introspection

/-! Converter files: which of its types a group converts field by field. Each type is introspected
once in a run. -/

namespace Switchboard

/-- A type that is converted field by field. -/
structure MappedType where
  path : SchemaPath
  constructor : Constructor
deriving DecidableEq, Repr

/-- What the converter of a group is made from. -/
structure ConverterFile where
  group : Nat
  name : String
  converter : String
  module : String
  mapped : List MappedType
  /-- The types that are made from nothing. -/
  fieldless : List SchemaPath
deriving DecidableEq, Repr

/-- Where the file is below the root of what is generated. -/
def ConverterFile.path (f : ConverterFile) : String := "internal/mapper/" ++ f.module ++ ".rs"

/-- The constructors found so far, by the texts of paths, and the types that were asked for with
what was answered, the latest first. A type that was asked for in vain may be asked for again. -/
structure ArityMemo where
  known : SortedMap Constructor := []
  asked : List (SchemaPath × Answer) := []

/-- What changes the memo, and may fail. What was found before stays known. -/
abbrev ArityFilter (α : Type) := ArityMemo → ArityMemo × Except IntrospectionError α

namespace ArityFilter

/-- The constructor of a type, from the memo if it is known. -/
def constructor (ask : Introspector) (p : SchemaPath) : ArityFilter Constructor := fun memo =>
  match SortedMap.get? p.text memo.known with
  | some c => (memo, .ok c)
  | none =>
    match ask p with
    | .ok c => (⟨SortedMap.insert p.text c memo.known, (p, .ok c) :: memo.asked⟩, .ok c)
    | .error e => (⟨memo.known, (p, .error e) :: memo.asked⟩, .error e)

/-- Whether the constructor of a type has parameters. -/
def hasFields (ask : Introspector) (p : SchemaPath) : ArityFilter Bool := fun memo =>
  match constructor ask p memo with
  | (memo, .ok c) => (memo, .ok c.hasFields)
  | (memo, .error e) => (memo, .error e)

/-- Types parted by whether they are made from anything, in order and each once. Those in the list
come again. -/
def part (ask : Introspector) :
    List SchemaPath → List SchemaPath → ArityFilter (List MappedType × List SchemaPath)
  | _, [], memo => (memo, .ok ([], []))
  | seen, p :: rest, memo =>
    if seen.contains p then part ask seen rest memo
    else
      match constructor ask p memo with
      | (memo, .error e) => (memo, .error e)
      | (memo, .ok c) =>
        match part ask (p :: seen) rest memo with
        | (memo, .error e) => (memo, .error e)
        | (memo, .ok (mapped, fieldless)) =>
          if c.hasFields then (memo, .ok (⟨p, c⟩ :: mapped, fieldless))
          else (memo, .ok (mapped, p :: fieldless))

/-- The converter file of a group that owns some types. -/
def file (ask : Introspector) (index : Nat) (g : Group) (owned : List SchemaPath) :
    ArityFilter ConverterFile := fun memo =>
  match part ask [] owned memo with
  | (memo, .error e) => (memo, .error e)
  | (memo, .ok (mapped, fieldless)) =>
    (memo, .ok ⟨index, g.name, g.converterName, g.moduleName, mapped, fieldless⟩)

/-- The converter files of groups in order, each with its index and what it owns. -/
def files (ask : Introspector) :
    List (Nat × Group × List SchemaPath) → ArityFilter (List ConverterFile)
  | [], memo => (memo, .ok [])
  | (index, g, owned) :: rest, memo =>
    match file ask index g owned memo with
    | (memo, .error e) => (memo, .error e)
    | (memo, .ok f) =>
      match files ask rest memo with
      | (memo, .error e) => (memo, .error e)
      | (memo, .ok fs) => (memo, .ok (f :: fs))

end ArityFilter

end Switchboard
