import Switchboard.Mismatch

/-! What goes wrong when an object is made from a record or a record from an object. -/

namespace Switchboard

/-- Why an object is not converted. -/
inductive ConversionError
  /-- No converter has the type. -/
  | unmatched (type : String)
  | field (type name : String) (reason : Mismatch)
  | typeMismatch (expected found : String)
deriving DecidableEq, Repr

namespace ConversionError

/-- The error in words. -/
def message : ConversionError → String
  | .unmatched type => s!"no converter registered for type '{type}'"
  | .field type name reason =>
    s!"field '{name}' of '{type}' could not be converted: {reason.message}"
  | .typeMismatch expected found => s!"expected an object of type '{expected}', found '{found}'"

/-- Whether the error is that no converter has the type. -/
def isUnmatched : ConversionError → Bool
  | .unmatched _ => true
  | _ => false

end ConversionError

end Switchboard
