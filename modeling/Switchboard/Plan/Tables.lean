import Switchboard.Plan.Ownership
import Switchboard.Dispatch.Table

/-! The tables for both directions of conversion, made from who owns what. -/

namespace Switchboard

/-- The table of each direction. -/
structure DispatchTables where
  decode : DispatchTable := {}
  encode : DispatchTable := {}
deriving DecidableEq, Repr, Inhabited

namespace DispatchTables

/-- The tables with a case for each of some groups that owns anything. -/
def pushGroups (o : Ownership) (tables : DispatchTables) :
    List Nat → Except TableError DispatchTables
  | [] => .ok tables
  | group :: rest =>
    let types := (o.ownedBy group).map SchemaPath.text
    if types.isEmpty then pushGroups o tables rest
    else do
      let decode ← tables.decode.push group types
      let encode ← tables.encode.push group types
      pushGroups o ⟨decode, encode⟩ rest

/-- The tables of all groups. -/
def build (o : Ownership) : Except TableError DispatchTables :=
  pushGroups o {} (List.range o.groupCount)

/-- Whether both tables route every name to the same group. -/
def isConsistent (t : DispatchTables) : Bool := t.decode.cases = t.encode.cases

end DispatchTables

end Switchboard
