import Switchboard.Source.File

/-! Which texts can stand in generated source as identifiers, as names of fields and as paths. -/

namespace Switchboard

/-- Why a text cannot stand where a name must. -/
inductive NameFault
  | empty
  | notIdentifier (text : String)
  | notField (text : String)
  | notPath (text : String)
deriving DecidableEq, Repr

/-- The fault in words. -/
def NameFault.message : NameFault → String
  | .empty => "ident is empty"
  | .notIdentifier text => s!"'{text}' is not a valid identifier"
  | .notField text => s!"'{text}' is not a valid field name"
  | .notPath text => s!"'{text}' is not a valid type path"

namespace Naming

/-- What keeps a text from being an identifier. -/
def identifierFault? (text : String) : Option NameFault :=
  if text.isEmpty then some .empty
  else if (Source.identifier? text).isSome then none
  else some (.notIdentifier text)

/-- What keeps a text from being the name of a field. -/
def fieldFault? (text : String) : Option NameFault :=
  if (Source.field? text).isSome then none else some (.notField text)

/-- What keeps a text from being a path. -/
def pathFault? (text : String) : Option NameFault :=
  if (Source.path? text).isSome then none else some (.notPath text)

end Naming

end Switchboard
