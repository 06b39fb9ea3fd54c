/-! What cannot be emitted. -/

namespace Switchboard

/-- Why source text cannot be emitted. -/
inductive EmissionError
  /-- A text cannot stand where the source text needs it. -/
  | unfit (what value : String)
  /-- A place in a tuple has too great a number to be written. The program breaks off. -/
  | unplaceable (index : Nat)
deriving DecidableEq, Repr

/-- The error in words. -/
def EmissionError.message : EmissionError → String
  | .unfit what value => s!"invalid {what} '{value}' for code emission"
  | .unplaceable index => s!"the place {index} is too great"

end Switchboard
