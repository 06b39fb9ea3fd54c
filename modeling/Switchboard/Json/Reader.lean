import Switchboard.Json.Tree
import Switchboard.Json.Print
import Switchboard.SortedMap
import Switchboard.Mismatch

/-! Reading values of a type from JSON, be it text or a value at hand. What is wrong first is the
answer. -/

namespace Switchboard.Json

/-- Why nothing is read. -/
inductive Problem
  | fault (f : Fault)
  | mismatch (m : Mismatch)
deriving DecidableEq, Repr

/-- Where JSON is read from. A value at hand is whole, so what is left over in it counts as a
mismatch, not as a fault. -/
inductive Origin
  | text | value
deriving DecidableEq, Repr

/-- A way to read values of a type. -/
abbrev Reader (α : Type) := Origin → Tree → Except Problem α

namespace Reader

def mismatch (m : Mismatch) : Except Problem α := .error (.mismatch m)

/-- What a tree is, if it has no fault. -/
def found : Tree → Except Problem Found
  | .null => .ok .null
  | .bool b => .ok (.bool b)
  | .number (.ok (.int n)) => .ok (.int n)
  | .number (.ok (.double d)) => .ok (.double d.written)
  | .string (.ok s) => .ok (.string s)
  | .number (.error f) | .string (.error f) | .broken _ f => .error (.fault f)
  | .array .. => .ok .sequence
  | .object .. => .ok .map

/-- Fails because something else was expected. -/
def reject (expected : String) (t : Tree) : Except Problem α := do
  mismatch (.wrongType (← found t) expected)

def string : Reader String
  | _, .string (.ok s) => .ok s
  | _, t => reject "a string" t

def bool : Reader Bool
  | _, .bool b => .ok b
  | _, t => reject "a boolean" t

def unit : Reader Unit
  | _, .null => .ok ()
  | _, t => reject "unit" t

/-- A whole number in a range, which has a name. -/
def integer (name : String) (low high : Int) : Reader Int
  | _, .number (.ok (.int n)) =>
    if low ≤ n ∧ n ≤ high then .ok n else mismatch (.wrongValue (.int n) name)
  | _, t => reject name t

/-- A count of 64 bits. -/
def size : Reader Nat
  | o, t => do return (← integer "usize" 0 Bounds.unsignedGreatest o t).toNat

/-- A number of double precision, to which a whole number is rounded. -/
def double : Reader Double
  | _, .number (.ok (.double d)) => .ok d
  | _, .number (.ok (.int n)) => .ok ((Double.ofInt n).getD (.zero false))
  | _, t => reject "f64" t

def option (read : Reader α) : Reader (Option α)
  | _, .null => .ok none
  | o, t => some <$> read o t

/-- The end of brackets of which all has been read. -/
def close : Ending → Except Problem Unit
  | .closed => .ok ()
  | .broken _ f => .error (.fault f)

def list (read : Reader α) : Reader (List α)
  | o, .array items ending => do
    let found ← items.mapM (read o)
    close ending
    return found
  | _, t => reject "a sequence" t

/-- The item at a place, which is missing if the sequence ends before it. -/
def item? (items : List Tree) (ending : Ending) (i : Nat) : Except Problem (Option Tree) :=
  match items[i]?, ending with
  | some t, _ => .ok (some t)
  | none, .closed => .ok none
  | none, .broken _ f => .error (.fault f)

/-- The item at a place, which must be there. -/
def item (read : Reader α) (o : Origin) (expected : String) (items : List Tree) (ending : Ending)
    (i : Nat) : Except Problem α := do
  match ← item? items ending i with
  | some t => read o t
  | none => mismatch (.wrongLength i expected)

/-- The item at a place or what stands for it if it is missing. -/
def itemD (read : Reader α) (o : Origin) (default : α) (items : List Tree) (ending : Ending)
    (i : Nat) : Except Problem α := do
  match ← item? items ending i with
  | some t => read o t
  | none => return default

/-- The end of a sequence that may have so many items. -/
def closeAfter (o : Origin) (count : Nat) (items : List Tree) (ending : Ending) :
    Except Problem Unit :=
  if count < items.length then
    match o with
    | .text => .error (.fault .malformed)
    | .value => mismatch (.wrongLength items.length "fewer elements in array")
  else
    match ending with
    | .closed => .ok ()
    | .broken true _ => .error (.fault .malformed)
    | .broken false f => .error (.fault f)

def pair (first : Reader α) (second : Reader β) : Reader (α × β)
  | o, .array items ending => do
    let a ← item first o "a tuple of size 2" items ending 0
    let b ← item second o "a tuple of size 2" items ending 1
    closeAfter o 2 items ending
    return (a, b)
  | _, t => reject "a tuple of size 2" t

/-- The text of a key. -/
def key : Tree → Except Problem String
  | .string (.ok s) => .ok s
  | .string (.error f) => .error (.fault f)
  | _ => .error (.fault .malformed)

/-- The entries of an object in order, each of which changes what has been read. -/
def entries (step : σ → String → Tree → Except Problem σ) (start : σ) (found : List (Tree × Tree))
    (ending : Ending) : Except Problem σ := do
  let s ← found.foldlM (fun s (k, t) => do step s (← key k) t) start
  close ending
  return s

def table (read : Reader α) : Reader (SortedMap α)
  | o, .object found ending =>
    entries (fun m k t => do return m.insert k (← read o t)) [] found ending
  | _, t => reject "a map" t

/-- A field that has not been read before. -/
def field (read : Reader α) (o : Origin) (name : String) (before : Option α) (t : Tree) :
    Except Problem (Option α) := do
  if before.isSome then mismatch (.duplicateField name)
  return some (← read o t)

/-- A field that must have been read. -/
def required (name : String) : Option α → Except Problem α
  | some a => .ok a
  | none => mismatch (.missingField name)

/-- What a variant has with its name: nothing is said of it, or a tree. -/
abbrev Payload := Option Tree

def unitVariant (o : Origin) : Payload → Except Problem Unit
  | none => .ok ()
  | some t => unit o t

def valueVariant (read : Reader α) (o : Origin) : Payload → Except Problem α
  | none => mismatch (.wrongType .unitVariant "newtype variant")
  | some t => read o t

/-- The name of a variant, which stands alone or is the one key of an object. -/
def variant (choose : Origin → String → Payload → Except Problem α) : Reader α
  | o, .string (.ok name) => choose o name none
  | .value, .object [] .closed => mismatch (.wrongValue .map "map with a single key")
  | .value, .object (_ :: _ :: _) _ => mismatch (.wrongValue .map "map with a single key")
  | .value, .object ((k, t) :: _) ending => do
    let a ← choose .value (← key k) (some t)
    close ending
    return a
  | .text, .object found ending => do
    match found with
    | [] =>
      match ending with
      | .closed => .error (.fault .malformed)
      | .broken _ f => .error (.fault f)
    | (k, t) :: rest =>
      let name ← match k with
        | .string (.ok name) => pure name
        | k => reject "variant identifier" k
      let a ← choose .text name (some t)
      closeAfter .text 1 (k :: rest.map Prod.fst) ending
      return a
  | _, .string (.error f) | _, .broken false f => .error (.fault f)
  | .text, _ => .error (.fault .malformed)
  | .value, t => reject "string or map" t

/-- Reads a text to its end. -/
def ofText (read : Reader α) (s : String) : Except Problem α := do
  let doc := Document.ofText s
  let a ← read .text doc.tree
  close doc.ending
  return a

/-- Reads a value at hand. -/
def ofValue (read : Reader α) (j : Json) : Except Mismatch α :=
  match read .value (.ofJson j) with
  | .ok a => .ok a
  | .error (.mismatch m) => .error m
  | .error (.fault _) => .error (.other "")

end Reader

mutual
/-- The value of a tree. Of two entries with one key the later stays. -/
def Tree.toJson : Tree → Except Problem Json
  | .null => .ok .null
  | .bool b => .ok (.bool b)
  | .number (.ok n) => .ok n.toJson
  | .string (.ok s) => .ok (.string s)
  | .number (.error f) | .string (.error f) | .broken _ f => .error (.fault f)
  | .array items ending => do
    let found ← Tree.toItems items
    Reader.close ending
    return .array found
  | .object entries ending => do
    let found ← Tree.toEntries entries []
    Reader.close ending
    return .object found

def Tree.toItems : List Tree → Except Problem (List Json)
  | [] => .ok []
  | t :: rest => do return (← t.toJson) :: (← Tree.toItems rest)

def Tree.toEntries : List (Tree × Tree) → SortedMap Json → Except Problem (SortedMap Json)
  | [], m => .ok m
  | (k, t) :: rest, m => do
    let k ← Reader.key k
    let j ← t.toJson
    Tree.toEntries rest (m.insert k j)
end

def Reader.any : Reader Json
  | _, t => t.toJson

/-- The value that a text is. -/
def parse (s : String) : Except Problem Json := Reader.any.ofText s

end Switchboard.Json
