import Switchboard.Naming.Words

/-! Names of generated items, made from the names of groups. -/

namespace Switchboard.Naming

open Text

/-- A word with its first character raised and all others lowered. -/
def capitalize : List Char → List Char
  | [] => []
  | c :: rest => LetterCase.upperChar c ++ LetterCase.lower rest

/-- Words in lower case joined by underscores. -/
def snake (name : String) : String :=
  String.ofList (['_'].intercalate ((words name.toList).map LetterCase.lower))

/-- Capitalised words joined by nothing. -/
def pascal (name : String) : String :=
  String.ofList ((words name.toList).flatMap capitalize)

/-- The type of the converter of a group. -/
def converterType (group : String) : String :=
  pascal group ++ "Mapper"

/-- The method that hands out the converter of a group with this accessor. -/
def accessorMethod (accessor : String) : String :=
  "mapper_" ++ accessor

end Switchboard.Naming
