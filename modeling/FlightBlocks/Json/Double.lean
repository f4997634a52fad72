import FlightBlocks.Json.Basic
/-!
JSON numbers as doubles. The leading digits that fit 64 bits are taken as an integer, and the
rest of the number as a power of ten that multiplies or divides it once, so a result may be a unit
or two off the nearest double. Doubles are ordered with `-0` before `+0`.
-/

namespace FlightBlocks

namespace Numeral

def wordLimit : Nat := UInt64.size

def gatherWhole : List Nat → Nat → Nat × Nat
  | [], significand => (significand, 0)
  | d :: ds, significand =>
    if significand * 10 + d < wordLimit then gatherWhole ds (significand * 10 + d)
    else (significand, (d :: ds).length)

def gatherFraction : List Nat → Nat → Nat → Nat × Nat
  | [], significand, taken => (significand, taken)
  | d :: ds, significand, taken =>
    if significand * 10 + d < wordLimit then
      gatherFraction ds (significand * 10 + d) (taken + 1)
    else (significand, taken)

def powerOfTen (e : Nat) : Float := Float.ofScientific 1 false e

/-- `significand` times `10 ^ e` for a significand of 64 bits; none when that is out of range. -/
def scale? (significand : Nat) (e : Int) : Option Float :=
  let f := significand.toUInt64.toFloat
  if significand = 0 then some f
  else if e > 308 then none
  else if e ≥ 0 then
    let g := f * powerOfTen e.toNat
    if g.isInf then none else some g
  else if e ≥ -308 then some (f / powerOfTen (-e).toNat)
  else if e ≥ -616 then some (f / powerOfTen 308 / powerOfTen (-e - 308).toNat)
  else some 0.0

def exponentValue (n : Numeral) : Int :=
  match n.exponent with
  | none => 0
  | some (negative, ds) =>
    let e : Int := min (ofDigits ds) (1 <<< 31)
    if negative then -e else e

def float? (n : Numeral) : Option Float :=
  let (significand, dropped) := gatherWhole n.whole 0
  let (significand, taken) := gatherFraction (n.fraction.getD []) significand 0
  (scale? significand (dropped - taken + n.exponentValue)).map fun f =>
    if n.negative then -f else f

end Numeral

/-- Doubles are ordered as these integers: by value, with `-0` before `+0`. -/
def doubleKey (f : Float) : Int :=
  let bits := f.toBits.toNat
  let half := 1 <<< 63
  if bits < half then bits else half - (bits : Int) - 1

end FlightBlocks
