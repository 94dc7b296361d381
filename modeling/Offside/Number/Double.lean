import Offside.Number.Power

/-!
# Doubles as exact numbers

A finite double is a whole number times a power of two. This file reads that form off the bits of a
double, and goes back from an exact quotient to the nearest double, ties to the even neighbour.
-/

namespace Offside.Number

/-- What the bits of a double stand for. -/
inductive Decoded where
  /-- The number `mantissa * 2 ^ exponent`, negated if `negative`. -/
  | finite (negative : Bool) (mantissa : Nat) (exponent : Int)
  /-- One of the two infinities. -/
  | infinite (negative : Bool)
  /-- Not a number. -/
  | undefined
  deriving DecidableEq

/-- The least exponent of a double's mantissa. -/
def leastExponent : Int := -1074

/-- The largest exponent of a double's mantissa. -/
def largestExponent : Int := 971

/-- Read sign, exponent and fraction of a double. -/
def decode (x : Float) : Decoded :=
  let bits := x.toBits.toNat
  let negative := bits / twoTo 63 == 1
  let biased := bits / twoTo 52 % 2048
  let fraction := bits % twoTo 52
  if biased = 2047 then
    if fraction = 0 then .infinite negative else .undefined
  else if biased = 0 then .finite negative fraction leastExponent
  else .finite negative (twoTo 52 + fraction) (leastExponent + (biased - 1 : Nat))

/-- The double with the given sign, mantissa and exponent; the mantissa is below `2 ^ 53`, and below
`2 ^ 52` only at the least exponent. -/
def assemble (negative : Bool) (mantissa : Nat) (exponent : Int) : Float :=
  let magnitude := (exponent - leastExponent).toNat * twoTo 52 + mantissa
  Float.ofBits (magnitude + if negative then twoTo 63 else 0).toUInt64

/-- The quotient `numerator / denominator`, rounded to a whole number, a half to the even side. -/
def roundedQuotient (numerator denominator : Nat) : Nat :=
  let quotient := numerator / denominator
  let twice := 2 * (numerator % denominator)
  if twice > denominator || (twice == denominator && quotient % 2 == 1) then quotient + 1
  else quotient

/-- The quotient `numerator / (denominator * 2 ^ exponent)`, rounded to a whole number. -/
def scaledQuotient (numerator denominator : Nat) (exponent : Int) : Nat :=
  roundedQuotient (numerator * twoTo (-exponent).toNat) (denominator * twoTo exponent.toNat)

/-- The exponent at which the quotient of two positive numbers has a mantissa of 53 bits. -/
def exponentOf (numerator denominator : Nat) : Int :=
  let guess : Int := (numerator.log2 : Int) - denominator.log2 - 52
  let reachesBelow :=
    twoTo 52 * denominator * twoTo guess.toNat ≤ numerator * twoTo (-guess).toNat
  max leastExponent (if reachesBelow then guess else guess - 1)

/-- The double nearest to `numerator / denominator` with the given sign, if one is in range. -/
def nearest? (negative : Bool) (numerator denominator : Nat) : Option Float :=
  if numerator = 0 then some (assemble negative 0 leastExponent)
  else
    let exponent := exponentOf numerator denominator
    let mantissa := scaledQuotient numerator denominator exponent
    let carried := mantissa == twoTo 53
    let exponent := if carried then exponent + 1 else exponent
    let mantissa := if carried then twoTo 52 else mantissa
    if largestExponent < exponent then none else some (assemble negative mantissa exponent)

/-- The double nearest to a whole number, if one is in range. -/
def nearestInt? (n : Int) : Option Float :=
  nearest? (n < 0) n.natAbs 1

end Offside.Number
