import Switchboard.Json

/-! Numbers in JSON text. The digits that fit into 64 bits are taken as a whole number, the others
only shift it; the power of ten is then multiplied or divided in, which rounds a second time. -/

namespace Switchboard.Json

/-- Why a text cannot be read. -/
inductive Fault
  | ended
  | malformed
deriving DecidableEq, Repr, Inhabited

/-- A number of either kind. -/
inductive Number
  | int (n : Int)
  | double (d : Double)
deriving DecidableEq, Repr, Inhabited

namespace Number

def toJson : Number → Json
  | .int n => .int n
  | .double d => .double d

/-- The digits that a text begins with, and what is left. -/
def digits (cs : List Char) : List Char × List Char :=
  (cs.takeWhile Char.isDigit, cs.dropWhile Char.isDigit)

/-- The value of digits taken on as long as it fits into 64 bits, and the number of digits not
taken. -/
def take (start : Nat) : List Char → Nat × Nat
  | [] => (start, 0)
  | c :: cs =>
    let grown := start * 10 + (c.toNat - 48)
    if grown < Nat.pow 2 64 then take grown cs else (start, cs.length + 1)

def valueOf (cs : List Char) : Nat :=
  cs.foldl (fun n c => n * 10 + (c.toNat - 48)) 0

/-- A number divided by 10^308 as often as its exponent lies below -308. -/
def lowered (d : Double) : Nat → Nat → Double × Nat
  | 0, exponent => (d, exponent)
  | n + 1, exponent =>
    if exponent ≤ 308 || d.isZero then (d, exponent)
    else
      match (Double.ofDecimal false 1 308).bind d.div with
      | some d => lowered d n (exponent - 308)
      | none => (d, exponent)

/-- A whole number of 64 bits times a power of ten, rounded after each step. -/
def ofParts (negative : Bool) (significand : Nat) (exponent : Int) : Except Fault Double :=
  let signed (d : Double) : Double := { d with negative }
  match Double.ofQuotient false significand 1 with
  | none => .error .malformed
  | some d =>
    if d.isZero then .ok (signed d)
    else if exponent < 0 then
      let (d, rest) := lowered d 8 exponent.natAbs
      if d.isZero then .ok (signed d)
      else
        match (Double.ofDecimal false 1 rest).bind d.div with
        | some d => .ok (signed d)
        | none => .ok (signed (.zero false))
    else if exponent > 308 then .error .malformed
    else
      match (Double.ofDecimal false 1 exponent).bind d.mul with
      | some d => .ok (signed d)
      | none => .error .malformed

/-- The exponent after its letter: its value and what is left. -/
def exponent (cs : List Char) : Except Fault (Int × List Char) :=
  let (negative, cs) := match cs with
    | '+' :: rest => (false, rest)
    | '-' :: rest => (true, rest)
    | _ => (false, cs)
  match digits cs with
  | ([], []) => .error .ended
  | ([], _) => .error .malformed
  | (found, rest) =>
    let n : Int := valueOf found
    .ok (if negative then -n else n, rest)

/-- The number whose digits up to here give a whole number and an exponent, and what is left. -/
def finish (negative : Bool) (significand : Nat) (shift : Int) (cs : List Char) :
    Except Fault (Number × List Char) := do
  match cs with
  | 'e' :: rest | 'E' :: rest =>
    let (power, rest) ← exponent rest
    let d ← ofParts negative significand (shift + power)
    return (.double d, rest)
  | _ =>
    let d ← ofParts negative significand shift
    return (.double d, cs)

/-- A number after its sign: its value and what is left. -/
def unsigned (negative : Bool) (cs : List Char) : Except Fault (Number × List Char) :=
  match digits cs with
  | ([], []) => .error .ended
  | ([], _) => .error .malformed
  | ('0' :: _ :: _, _) => .error .malformed
  | (whole, rest) =>
    let (significand, excess) := take 0 whole
    match rest with
    | '.' :: rest =>
      match digits rest with
      | ([], []) => .error .ended
      | ([], _) => .error .malformed
      | (after, rest) =>
        let (grown, left) := take significand after
        finish negative grown ((excess : Int) - ((after.length - left : Nat) : Int)) rest
    | 'e' :: _ | 'E' :: _ => finish negative significand excess rest
    | _ =>
      if excess ≠ 0 then finish negative significand excess rest
      else if !negative then .ok (.int significand, rest)
      else if 0 < significand ∧ significand ≤ Nat.pow 2 63 then .ok (.int (-significand), rest)
      else finish negative significand 0 rest

/-- The number that a text begins with, and what is left. -/
def read (cs : List Char) : Except Fault (Number × List Char) :=
  match cs with
  | '-' :: rest => unsigned true rest
  | _ => unsigned false cs

/-- What is left after one or more digits. -/
def skipDigits (cs : List Char) : Except Fault (List Char) :=
  match digits cs with
  | ([], _) => .error .malformed
  | (_, rest) => .ok rest

/-- What is left after an exponent, if there is one. -/
def skipExponent (cs : List Char) : Except Fault (List Char) :=
  match cs with
  | 'e' :: '+' :: rest | 'e' :: '-' :: rest | 'E' :: '+' :: rest | 'E' :: '-' :: rest
  | 'e' :: rest | 'E' :: rest => skipDigits rest
  | _ => .ok cs

/-- What is left after a number that is not evaluated. -/
def skip (cs : List Char) : Except Fault (List Char) := do
  let cs := match cs with
    | '-' :: rest => rest
    | _ => cs
  let rest ← match cs with
    | '0' :: rest => if rest.head?.any Char.isDigit then .error .malformed else .ok rest
    | _ => skipDigits cs
  match rest with
  | '.' :: rest => skipExponent (← skipDigits rest)
  | _ => skipExponent rest

end Number

end Switchboard.Json
