import Switchboard.FileTree.Route
import Switchboard.Schema.Model

/-! Introspection: which constructor a type has, asked of those who may know. -/

namespace Switchboard

/-- Why an introspector names no constructor. -/
inductive IntrospectionError
  | unknownType (p : SchemaPath)
  /-- The type is known, but has no constructor that can be named. -/
  | unsupported (p : SchemaPath) (reason : String)
  /-- The text of a module is no source text. -/
  | malformed (module : String)
  /-- A source file cannot be read. -/
  | unreadable (file : String) (reason : FileError)
deriving DecidableEq, Repr

/-- The error in words. -/
def IntrospectionError.message : IntrospectionError → String
  | .unknownType p => s!"type '{p.text}' is unknown to the introspector"
  | .unsupported p reason => s!"type '{p.text}' cannot be introspected: {reason}"
  | .malformed module => s!"failed to parse source for module '{module}'"
  | .unreadable file reason => s!"failed to read '{file}': {reason.message}"

abbrev Answer := Except IntrospectionError Constructor

/-- One who may know the constructors of types. -/
abbrev Introspector := SchemaPath → Answer

/-- A type table knows its own types. -/
def TypeTable.introspector (table : TypeTable) : Introspector := fun p =>
  match table.constructor? p with
  | some c => .ok c
  | none => .error (.unknownType p)

namespace Introspector

def isUnknown : Answer → Bool
  | .error (.unknownType _) => true
  | _ => false

/-- The answer of several in turn, and how many of them were asked. Only one who does not know the
type is followed by the next. -/
def consult (p : SchemaPath) : List Introspector → Answer × Nat
  | [] => (.error (.unknownType p), 0)
  | link :: rest =>
    let answer := link p
    if isUnknown answer then
      let (later, asked) := consult p rest
      (later, asked + 1)
    else (answer, 1)

/-- Several introspectors as one. -/
def chain (links : List Introspector) : Introspector := fun p => (consult p links).1

end Introspector

end Switchboard
