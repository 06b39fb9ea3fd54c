import Switchboard.Config
import Switchboard.Toml.Document
import Switchboard.FileTree.Action

/-! Settings read from TOML text and from files. -/

namespace Switchboard

/-- Why settings are not read. -/
inductive ConfigError
  /-- The text is not TOML. -/
  | malformed
  | mismatch (m : Mismatch)
  | invalid (fault : SettingFault)
  | unreadable (file : String) (reason : FileError)
deriving DecidableEq, Repr

/-- The error in words. -/
def ConfigError.message : ConfigError → String
  | .malformed => "invalid typemux config: not a TOML document"
  | .mismatch m => "invalid typemux config: " ++ m.message
  | .invalid fault => fault.message
  | .unreadable file reason => s!"failed to read config '{file}': {reason.message}"

namespace Config

/-- What a TOML value is, as messages name it. -/
def found : Toml → Found
  | .string s => .string s
  | .int n => .int n
  | .float (.finite d) => .double d.positional
  | .float (.infinite negative) => .double (if negative then "-inf" else "inf")
  | .float .notANumber => .double "NaN"
  | .bool b => .bool b
  | .array _ | .tables .. => .sequence
  | .date | .table .. => .map

/-- The text that a TOML value is. -/
def readText : Toml → Except Mismatch String
  | .string s => .ok s
  | value => .error (.wrongType (found value) "a string")

/-- Checks the value under the name of a level: a table or an array without entries. -/
def readNothing : Toml → Except Mismatch Unit
  | .table _ [] | .array [] => .ok ()
  | .table .. => .error (.other "expected empty table")
  | .array _ | .tables .. => .error (.other "expected empty array")
  | .string _ => .error (.other "expected table, found string")
  | .int _ => .error (.other "expected table, found integer")
  | .float _ => .error (.other "expected table, found float")
  | .bool _ => .error (.other "expected table, found boolean")
  | .date => .error (.other "expected table, found datetime")

/-- The level that a TOML value is: its name alone, or as the one key of a table. -/
def readLevel : Toml → Except Mismatch ConflictLevel
  | .string name => ConflictLevel.ofName name
  | .table _ [] => .error (.other "wanted exactly 1 element, found 0 elements")
  | .table _ [(name, value)] => do
    let level ← ConflictLevel.ofName name
    readNothing value
    return level
  | .table _ (_ :: _ :: _) => .error (.other "wanted exactly 1 element, more than 1 element")
  | _ => .error (.other "wanted string or table")

/-- The settings of a TOML document, whose keys are looked at in ascending order. -/
def ofEntries (entries : Toml.Entries) : Except Mismatch Config := do
  let step (d : Draft) (entry : String × Toml) : Except Mismatch Draft := do
    match entry.1 with
    | "namespace" => return { d with mount := some (← readText entry.2) }
    | "dispatcher" => return { d with dispatcher := some (← readText entry.2) }
    | "conflicts" => return { d with conflicts := some (← readLevel entry.2) }
    | key => throw (.unknownField key keys)
  return (← entries.foldlM step {}).finish

/-- The settings of a text. They must be of use. -/
def ofText (text : String) : Except ConfigError Config :=
  match Toml.parse text with
  | none => .error .malformed
  | some entries =>
    match ofEntries entries with
    | .error m => .error (.mismatch m)
    | .ok c =>
      match c.fault? with
      | some fault => .error (.invalid fault)
      | none => .ok c

/-- The settings of a file. -/
def load (t : FileTree) (here : Place) (file : String) : Except ConfigError Config :=
  match FileAction.contents t here file with
  | .error reason => .error (.unreadable file reason)
  | .ok text => ofText text

/-- The settings of a file, or the standard ones if it is not there. -/
def loadOrStandard (t : FileTree) (here : Place) (file : String) : Except ConfigError Config :=
  if FileAction.leads t here file then load t here file else .ok {}

end Config

end Switchboard
