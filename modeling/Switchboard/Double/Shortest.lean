import Switchboard.Double

/-! The shortest decimal that reads back as the same number, and the two ways of writing it. -/

namespace Switchboard.Double

/-- A decimal: `digits * 10 ^ exponent`. -/
structure Decimal where
  digits : Nat
  exponent : Int
deriving DecidableEq, Repr

/-- What rounds to a number: the range from `low / den` to `high / den` around `mid / den`. Its ends
belong to it if the significand is even. -/
structure Interval where
  low : Nat
  mid : Nat
  high : Nat
  den : Nat
  closed : Bool

/-- What rounds to a positive number. Below a power of two the numbers stand twice as close. -/
def interval (d : Double) : Interval :=
  let m := d.significand
  let below := if m == Nat.pow 2 52 && d.power > leastPower then 4 * m - 1 else 4 * m - 2
  let power := d.power - 2
  let unit := if power < 0 then 1 else Nat.pow 2 power.natAbs
  let den := if power < 0 then Nat.pow 2 power.natAbs else 1
  ⟨below * unit, 4 * m * unit, (4 * m + 2) * unit, den, m % 2 == 0⟩

/-- Whether a decimal over the same denominator lies in the range. -/
def Interval.has (i : Interval) (n : Nat) : Bool :=
  if i.closed then i.low ≤ n && n ≤ i.high else i.low < n && n < i.high

/-- The range with its numbers multiplied so that a step of the decimal grid is a whole number: the
range and that step. -/
def Interval.onGrid (i : Interval) (exponent : Int) : Interval × Nat :=
  let k := Nat.pow 10 exponent.natAbs
  if exponent < 0 then (⟨i.low * k, i.mid * k, i.high * k, i.den, i.closed⟩, i.den)
  else (i, i.den * k)

/-- The decimal of the grid that lies in the range and nearest to its middle, the even one of two.
-/
def Interval.pick (i : Interval) (exponent : Int) : Option Decimal :=
  let (i, step) := i.onGrid exponent
  let down := i.mid / step
  let up := down + 1
  let toDown := i.mid - down * step
  let toUp := up * step - i.mid
  let fits (n : Nat) : Bool := 0 < n && i.has (n * step)
  let preferUp := toUp < toDown || (toUp == toDown && down % 2 == 1)
  if fits down && (!preferUp || !fits up) then some ⟨down, exponent⟩
  else if fits up then some ⟨up, exponent⟩
  else none

/-- The first grid with a decimal in the range, tried from a coarse one down. -/
def search (i : Interval) : Nat → Int → Decimal
  | 0, exponent => ⟨0, exponent⟩
  | n + 1, exponent =>
    match i.pick exponent with
    | some d => d
    | none => search i n (exponent - 1)

def places (n : Nat) : Nat := (Nat.toDigits 10 n).length

/-- The shortest decimal that reads back as the absolute value of the number, and of several the
nearest to it. No more than seventeen digits are needed. -/
def shortest (d : Double) : Decimal :=
  if d.isZero then ⟨0, 0⟩
  else
    let (num, den) := d.fraction
    let top : Int := (places num : Int) - (places den : Int) + 1
    search d.interval 24 top

def Decimal.characters (d : Decimal) : List Char := Nat.toDigits 10 d.digits

/-- The exponent of the first digit. -/
def Decimal.lead (d : Decimal) : Int :=
  (d.characters.length : Int) - 1 + d.exponent

/-- A decimal with a point and no exponent, with at least one digit on both sides. -/
def Decimal.positional (d : Decimal) : List Char :=
  let cs := d.characters
  if d.exponent ≥ 0 then cs ++ List.replicate d.exponent.natAbs '0' ++ ['.', '0']
  else
    let after := d.exponent.natAbs
    if cs.length ≤ after then
      ['0', '.'] ++ List.replicate (after - cs.length) '0' ++ cs
    else cs.take (cs.length - after) ++ ['.'] ++ cs.drop (cs.length - after)

/-- A decimal with one digit before the point and an exponent, which has a sign. -/
def Decimal.scientific (d : Decimal) : List Char :=
  let cs := d.characters
  let fractional := match cs.drop 1 with
    | [] => []
    | rest => '.' :: rest
  let sign := if d.lead < 0 then '-' else '+'
  cs.take 1 ++ fractional ++ ['e', sign] ++ Nat.toDigits 10 d.lead.natAbs

/-- A text with the sign of a number before it. -/
def signed (d : Double) (cs : List Char) : String :=
  String.ofList (if d.negative then '-' :: cs else cs)

/-- The number without an exponent, however many zeros that takes. -/
def positional (d : Double) : String :=
  d.signed d.shortest.positional

/-- The number without an exponent if its first digit stands from the fifth place after the point to
the sixteenth before it, otherwise with one. -/
def written (d : Double) : String :=
  let s := d.shortest
  d.signed (if d.isZero || (-5 ≤ s.lead && s.lead ≤ 15) then s.positional else s.scientific)

end Switchboard.Double
