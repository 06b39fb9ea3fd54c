import Switchboard.Bounds
import Switchboard.Double

/-! JSON values. The entries of an object are kept by ascending key, each key once. -/

namespace Switchboard

/-- A JSON value. A number is whole, from -2^63 to 2^64 - 1, or of double precision. -/
inductive Json
  | null
  | bool (b : Bool)
  | int (n : Int)
  | double (d : Double)
  | string (s : String)
  | array (items : List Json)
  | object (entries : List (String × Json))
deriving Repr, Inhabited, BEq

namespace Json

/-- A list of texts. -/
def strings (texts : List String) : Json := .array (texts.map .string)

/-- A count. -/
def nat (n : Nat) : Json := .int n

/-- A value or null. -/
def optional (f : α → Json) : Option α → Json
  | some a => f a
  | none => .null

/-- Whether a whole number is kept exactly. -/
def keepsInt (n : Int) : Bool :=
  decide (Bounds.signedLeast ≤ n) && decide (n ≤ Bounds.unsignedGreatest)

end Json

end Switchboard
