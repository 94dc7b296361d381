import Offside.Number.Exact
import Offside.Overflow

/-!
# Arithmetic of integers and doubles

An operation on two integers gives an integer, except that division gives a double. With a double on
either side the integer is made a double first, which is refused for integers beyond the doubles.
Division with remainder rounds the quotient down, so the remainder has the sign of the divisor.
-/

namespace Offside

/-- A number of the language. -/
inductive Numeral where
  | int (value : Int)
  | float (value : Float)

namespace Number

/-- The sign of a double; also zeros have one. -/
def isNegative (x : Float) : Bool :=
  match decode x with
  | .finite negative _ _ => negative
  | .infinite negative => negative
  | .undefined => false

/-- A zero with the given sign. -/
def signedZero (negative : Bool) : Float := if negative then -0.0 else 0.0

/-- The double with the exact value `magnitude * 2 ^ exponent`, negated if `negative`. -/
def ofScaled (negative : Bool) (magnitude : Nat) (exponent : Int) : Float :=
  (nearest? negative (magnitude * twoTo exponent.toNat) (twoTo (-exponent).toNat)).getD (0.0 / 0.0)

/-- The remainder of a division rounded toward zero, which is always a double itself. -/
def truncatedRemainder (x y : Float) : Float :=
  match decode x, decode y with
  | .finite negative m e, .finite _ n f =>
    if n = 0 then 0.0 / 0.0
    else
      let least := min e f
      let dividend := m * twoTo (e - least).toNat
      let divisor := n * twoTo (f - least).toNat
      ofScaled negative (dividend % divisor) least
  | .finite .., .infinite _ => x
  | _, _ => 0.0 / 0.0

/-- The largest whole number that is at most `x`, for a double other than a zero. -/
def floor (x : Float) : Float :=
  match decode x with
  | .finite negative m e =>
    if 0 ≤ e then x
    else
      let scale := twoTo (-e).toNat
      if negative then
        let whole := (m + scale - 1) / scale
        (nearest? true whole 1).getD x
      else (nearest? false (m / scale) 1).getD x
  | _ => x

/-- The remainder with the sign of the divisor, given the remainder of rounding toward zero. -/
def adjustedRemainder (remainder y : Float) : Float :=
  if remainder == 0.0 then signedZero (isNegative y)
  else if (y < 0.0) != (remainder < 0.0) then remainder + y
  else remainder

/-- The remainder of a division rounded down. -/
def floorRemainder (x y : Float) : Float :=
  adjustedRemainder (truncatedRemainder x y) y

/-- The quotient of a division rounded down, made whole again after its own rounding. -/
def floorQuotient (x y : Float) : Float :=
  let remainder := truncatedRemainder x y
  let quotient := (x - remainder) / y
  let quotient :=
    if remainder == 0.0 then quotient
    else if (y < 0.0) != (remainder < 0.0) then quotient - 1.0
    else quotient
  if quotient == 0.0 then signedZero (isNegative (x / y))
  else
    let whole := floor quotient
    if 0.5 < quotient - whole then whole + 1.0 else whole

/-- An integer as a double. -/
def floatOfInt (n : Int) : Except Overflow Float :=
  match nearestInt? n with
  | some x => .ok x
  | none => .error .conversion

/-- The quotient of two integers, rounded once from its exact value. -/
def quotient (m n : Int) : Except Overflow Float :=
  match nearest? (decide (m < 0) != decide (n < 0)) m.natAbs n.natAbs with
  | some x => .ok x
  | none => .error .quotient

end Number

namespace Numeral

/-- The exact value of a number. -/
def exact : Numeral → Number.Exact
  | .int n => .ofInt n
  | .float x => .ofFloat x

/-- A number as a double. -/
def toFloat : Numeral → Except Overflow Float
  | .int n => Number.floatOfInt n
  | .float x => .ok x

/-- Equality of numbers by value. -/
def equal : Numeral → Numeral → Bool
  | .int m, .int n => m == n
  | left, right => left.exact.equal right.exact

/-- The order of numbers by value. -/
def less : Numeral → Numeral → Bool
  | .int m, .int n => decide (m < n)
  | left, right => left.exact.less right.exact

/-- Whether a number is less than or equal to another one. -/
def lessEqual (left right : Numeral) : Bool := left.less right || left.equal right

/-- Whether a number is a zero. -/
def isZero (number : Numeral) : Bool := number.equal (.int 0)

/-- The number with the opposite sign. -/
def negate : Numeral → Numeral
  | .int n => .int (-n)
  | .float x => .float (-x)

/-- Apply an operation to two integers, or to two doubles if one of the numbers is a double. -/
def combine (onInts : Int → Int → Except Overflow Numeral) (onFloats : Float → Float → Float) :
    Numeral → Numeral → Except Overflow Numeral
  | .int m, .int n => onInts m n
  | left, right => do
    let x ← left.toFloat
    let y ← right.toFloat
    return .float (onFloats x y)

/-- The sum of two numbers. -/
def add : Numeral → Numeral → Except Overflow Numeral :=
  combine (fun m n => .ok (.int (m + n))) (· + ·)

/-- The difference of two numbers. -/
def subtract : Numeral → Numeral → Except Overflow Numeral :=
  combine (fun m n => .ok (.int (m - n))) (· - ·)

/-- The product of two numbers. -/
def multiply : Numeral → Numeral → Except Overflow Numeral :=
  combine (fun m n => .ok (.int (m * n))) (· * ·)

/-- The quotient of two numbers, the second of which is not zero. -/
def divide : Numeral → Numeral → Except Overflow Numeral :=
  combine (fun m n => (Number.quotient m n).map .float) (· / ·)

/-- The quotient rounded down, the divisor of which is not zero. -/
def floorDivide : Numeral → Numeral → Except Overflow Numeral :=
  combine (fun m n => .ok (.int (m.fdiv n))) Number.floorQuotient

/-- The remainder of rounding down, the divisor of which is not zero. -/
def modulo : Numeral → Numeral → Except Overflow Numeral :=
  combine (fun m n => .ok (.int (m.fmod n))) Number.floorRemainder

end Numeral

end Offside
