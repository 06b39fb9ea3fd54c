import Switchboard.Dispatch.Dispatcher
import Switchboard.Plan.Tables
import Switchboard.Sample.Schema

/-! The groups of the sample schema with what they claim, and the plan by which a dispatcher serves
them that is not generated. -/

namespace Switchboard.Sample

/-- The name of a type of the schema as a claim. -/
def claim (name : String) : SchemaPath := .of (module ++ name)

/-- The groups in order. Two types are claimed twice, and the first claim wins. -/
def groups : List Group :=
  [{ name := "pets", claims := [claim "Pet", claim "Owner", claim "Tag"] },
    { name := "people", claims := [claim "Owner", claim "Person", claim "Pair"] },
    { name := "shadow", claims := [claim "Pet"] },
    { name := "Keywords", accessor := some "keywords",
      claims := [claim "Keyword", claim "Marker"] }]

/-- The groups as the schema knows them, in the same order. -/
def members : List Member := [.pets, .people, .shadow, .keywords]

/-- The table of the groups, with the converter of each. -/
def dispatchPlan : Except TableError (DispatchPlan Object) := do
  let tables ← DispatchTables.build (.resolve groups)
  let makers := members.map fun m _ => m.converter
  return ⟨tables.decode, (groups.map Group.name).zip makers⟩

end Switchboard.Sample
