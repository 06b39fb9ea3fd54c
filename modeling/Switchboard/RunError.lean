import Switchboard.Config
import Switchboard.Dispatch.Table
import Switchboard.Emission.Error
import Switchboard.FileTree.Route
import Switchboard.Introspection
import Switchboard.Schema.Validation

/-! Why a run fails. Nothing of a run that fails before it writes is written. -/

namespace Switchboard

/-- Why a run fails. -/
inductive RunError
  | setting (fault : SettingFault)
  | validation (errors : ErrorTree Complaint)
  | introspection (e : IntrospectionError)
  | table (e : TableError)
  | emission (e : EmissionError)
  | write (reason : FileError)

/-- The error in words. -/
def RunError.message : RunError → String
  | .setting fault => fault.message
  | .validation errors => "model validation failed:\n" ++ errors.text Complaint.message
  | .introspection e => e.message
  | .table e => "dispatch table invariant violated: " ++ e.message
  | .emission e => e.message
  | .write reason => "failed to write: " ++ reason.message

end Switchboard
