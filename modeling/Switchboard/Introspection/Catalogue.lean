import Switchboard.Introspection
import Switchboard.Source.File
import Switchboard.FileTree.Action

/-! Catalogues: the types that source text defines, by their paths. A type that is defined again has
its latest definition. -/

namespace Switchboard

open Source (Definition Item)

/-- What is known of the types of some sources, by the texts of their paths. -/
abbrev Catalogue := SortedMap Definition

namespace Catalogue

mutual
/-- The definitions of an item, each with its path. Names are taken without the sign of a raw
name. -/
def definitions (module : String) : Item → List (SchemaPath × Definition)
  | .defines name d => [(.within module name.text, d)]
  | .module name items =>
    allDefinitions (if module.isEmpty then name.text else module ++ "::" ++ name.text) items
  | .other => []

/-- The definitions of items in order, each with its path. -/
def allDefinitions (module : String) : List Item → List (SchemaPath × Definition)
  | [] => []
  | item :: rest => definitions module item ++ allDefinitions module rest
end

/-- The catalogue with more definitions, the later in place of the earlier. -/
def define (catalogue : Catalogue) (found : List (SchemaPath × Definition)) : Catalogue :=
  found.foldl (fun c (p, d) => SortedMap.insert p.text d c) catalogue

/-- The catalogue with the definitions of a source whose root is a module. -/
def addSource (catalogue : Catalogue) (module text : String) :
    Except IntrospectionError Catalogue :=
  match Source.items? text with
  | some items => .ok (catalogue.define (allDefinitions module items))
  | none => .error (.malformed module)

/-- The catalogue with the definitions of a file whose root is a module. -/
def addFile (catalogue : Catalogue) (t : FileTree) (here : Place) (module file : String) :
    Except IntrospectionError Catalogue :=
  match FileAction.contents t here file with
  | .ok text => catalogue.addSource module text
  | .error reason => .error (.unreadable file reason)

/-- The error for a type of a kind that has no single constructor. -/
def unsupported (p : SchemaPath) (kind : String) : IntrospectionError :=
  .unsupported p (kind ++ " has no single constructor")

/-- The answer for a type with a definition. Only a struct without generic parameters has a
constructor. -/
def answer (p : SchemaPath) : Definition → Answer
  | .named fields => .ok (.named (fields.map Source.Word.text))
  | .tuple arity => .ok (.tuple arity)
  | .unit => .ok .unit
  | .genericStruct => .error (unsupported p "generic struct")
  | .enumeration => .error (unsupported p "enum")
  | .union => .error (unsupported p "union")

/-- A catalogue knows the types that it has. -/
def introspector (catalogue : Catalogue) : Introspector := fun p =>
  match SortedMap.get? p.text catalogue with
  | some d => answer p d
  | none => .error (.unknownType p)

end Catalogue

end Switchboard
