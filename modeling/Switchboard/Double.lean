/-! Finite numbers of double precision: a sign, a significand below 2^53 and a power of two. Every
operation gives the number nearest to the exact result, and of two nearest the even one. -/

namespace Switchboard

/-- The number `significand * 2 ^ power`, negated if `negative` is set. The significand is at least
2^52 unless the power is the least one. -/
structure Double where
  negative : Bool
  significand : Nat
  power : Int
deriving DecidableEq, Repr, Inhabited

namespace Double

def leastPower : Int := -1074

def greatestPower : Int := 971

def zero (negative : Bool) : Double := ⟨negative, 0, leastPower⟩

def bits (n : Nat) : Nat :=
  if n = 0 then 0 else n.log2 + 1

/-- The whole number nearest to a quotient, the even one of two. -/
def roundQuotient (num den : Nat) : Nat :=
  let q := num / den
  let r := num % den
  if 2 * r < den then q
  else if 2 * r > den then q + 1
  else q + q % 2

/-- A quotient over a power of two, as numerator and denominator. -/
def scaled (num den : Nat) (power : Int) : Nat × Nat :=
  if power < 0 then (num * Nat.pow 2 power.natAbs, den) else (num, den * Nat.pow 2 power.natAbs)

/-- The significand and the power of the number nearest to a positive quotient, whatever the range.
-/
def nearest (num den : Nat) : Nat × Int :=
  let guess : Int := max ((bits num : Int) - (bits den : Int) - 53) leastPower
  let floor := scaled num den guess
  let power := if floor.1 / floor.2 < Nat.pow 2 53 then guess else guess + 1
  let exact := scaled num den power
  let m := roundQuotient exact.1 exact.2
  if m < Nat.pow 2 53 then (m, power) else (m / 2, power + 1)

/-- The number nearest to a quotient, nothing if that is beyond the range. -/
def ofQuotient (negative : Bool) (num den : Nat) : Option Double :=
  if num = 0 then some (zero negative)
  else
    let (m, power) := nearest num den
    if power ≤ greatestPower then some ⟨negative, m, power⟩ else none

def fraction (d : Double) : Nat × Nat :=
  if d.power < 0 then (d.significand, Nat.pow 2 d.power.natAbs)
  else (d.significand * Nat.pow 2 d.power.natAbs, 1)

/-- The number nearest to `digits * 10 ^ exponent`. -/
def ofDecimal (negative : Bool) (digits : Nat) (exponent : Int) : Option Double :=
  if exponent < 0 then ofQuotient negative digits (Nat.pow 10 exponent.natAbs)
  else ofQuotient negative (digits * Nat.pow 10 exponent.natAbs) 1

def mul (a b : Double) : Option Double :=
  let (an, ad) := a.fraction
  let (bn, bd) := b.fraction
  ofQuotient (a.negative != b.negative) (an * bn) (ad * bd)

/-- The quotient of two numbers, nothing if it is beyond the range or the divisor is zero. -/
def div (a b : Double) : Option Double :=
  let (an, ad) := a.fraction
  let (bn, bd) := b.fraction
  if bn = 0 then none else ofQuotient (a.negative != b.negative) (an * bd) (ad * bn)

def ofInt (n : Int) : Option Double :=
  ofQuotient (n < 0) n.natAbs 1

def isZero (d : Double) : Bool :=
  d.significand == 0

end Double

end Switchboard
