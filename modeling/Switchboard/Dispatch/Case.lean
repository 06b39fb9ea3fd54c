import Switchboard.Dispatch.Table
import Switchboard.Json.Reader

/-! Cases of a dispatch table as JSON. -/

namespace Switchboard.DispatchCase

/-- The JSON form. -/
def toJson (c : DispatchCase) : Json :=
  .object [("group", .nat c.group), ("types", .strings c.types)]

/-- The fields of a case that have been read. -/
structure Draft where
  group : Option Nat := none
  types : Option (List String) := none

/-- Reads the JSON form: an object, or an array of the fields in order. -/
def reader : Json.Reader DispatchCase
  | o, .object found ending => do
    let step (d : Draft) (key : String) (t : Json.Tree) : Except Json.Problem Draft := do
      match key with
      | "group" => return { d with group := ← Json.Reader.field .size o key d.group t }
      | "types" => return { d with types := ← Json.Reader.field (.list .string) o key d.types t }
      | _ => return d
    let d ← Json.Reader.entries step {} found ending
    return ⟨← Json.Reader.required "group" d.group, ← Json.Reader.required "types" d.types⟩
  | o, .array items ending => do
    let expected := "struct DispatchCase with 2 elements"
    let group ← Json.Reader.item .size o expected items ending 0
    let types ← Json.Reader.item (.list .string) o expected items ending 1
    Json.Reader.closeAfter o 2 items ending
    return ⟨group, types⟩
  | _, t => Json.Reader.reject "struct DispatchCase" t

end Switchboard.DispatchCase
