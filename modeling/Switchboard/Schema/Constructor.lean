import Switchboard.Json.Reader

/-! Constructors: what a type is made from, as far as conversion goes. -/

namespace Switchboard

/-- The shape of a type's one constructor. -/
inductive Constructor
  | named (fields : List String)
  | tuple (arity : Nat)
  | unit
deriving DecidableEq, Repr, Inhabited

namespace Constructor

def arity : Constructor → Nat
  | .named fields => fields.length
  | .tuple n => n
  | .unit => 0

def hasFields (c : Constructor) : Bool := 0 < c.arity

/-- The record key of each parameter. A parameter by position has its index for a key. -/
def params : Constructor → List String
  | .named fields => fields
  | .tuple n => (List.range n).map toString
  | .unit => []

def toJson : Constructor → Json
  | .named fields => .object [("named", .strings fields)]
  | .tuple n => .object [("tuple", .nat n)]
  | .unit => .string "unit"

def reader : Json.Reader Constructor :=
  .variant fun o name payload =>
    match name with
    | "named" => .named <$> Json.Reader.valueVariant (.list .string) o payload
    | "tuple" => .tuple <$> Json.Reader.valueVariant .size o payload
    | "unit" => do
      Json.Reader.unitVariant o payload
      return .unit
    | name => Json.Reader.mismatch (.unknownVariant name ["named", "tuple", "unit"])

@[simp] theorem length_params (c : Constructor) : c.params.length = c.arity := by
  cases c <;> simp [params, arity]

end Constructor

end Switchboard
