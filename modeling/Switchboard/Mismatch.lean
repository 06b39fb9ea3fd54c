import Switchboard.Text.Quoted

/-! Mismatches: values that are not of the type that was asked for, and how messages tell of them.
-/

namespace Switchboard

/-- What stands where something else was expected. -/
inductive Found
  | null
  | bool (b : Bool)
  | int (n : Int)
  | double (written : String)
  | string (s : String)
  | sequence
  | map
  | unitVariant
deriving DecidableEq, Repr

/-- Why a value has not the type that is read. -/
inductive Mismatch
  | wrongType (found : Found) (expected : String)
  | wrongValue (found : Found) (expected : String)
  | wrongLength (length : Nat) (expected : String)
  | unknownVariant (name : String) (known : List String)
  | unknownField (name : String) (known : List String)
  | duplicateField (name : String)
  | missingField (name : String)
  | other (message : String)
deriving DecidableEq, Repr

/-- What stands there, as messages name it. -/
def Found.message : Found → String
  | .null => "null"
  | .bool b => s!"boolean `{b}`"
  | .int n => s!"integer `{n}`"
  | .double written => s!"floating point `{written}`"
  | .string s => "string " ++ Text.Quoted.message s
  | .sequence => "sequence"
  | .map => "map"
  | .unitVariant => "unit variant"

/-- Names that could have stood there, as messages list them. -/
def oneOf (names : List String) : String :=
  match names with
  | [a] => s!"expected `{a}`"
  | [a, b] => s!"expected `{a}` or `{b}`"
  | names => "expected one of " ++ ", ".intercalate (names.map fun n => s!"`{n}`")

/-- The mismatch in words. -/
def Mismatch.message : Mismatch → String
  | .wrongType found expected => s!"invalid type: {found.message}, expected {expected}"
  | .wrongValue found expected => s!"invalid value: {found.message}, expected {expected}"
  | .wrongLength length expected => s!"invalid length {length}, expected {expected}"
  | .unknownVariant name known => s!"unknown variant `{name}`, {oneOf known}"
  | .unknownField name known => s!"unknown field `{name}`, {oneOf known}"
  | .duplicateField name => s!"duplicate field `{name}`"
  | .missingField name => s!"missing field `{name}`"
  | .other message => message

end Switchboard
