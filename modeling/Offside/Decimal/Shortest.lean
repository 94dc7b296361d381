import Offside.Number.Double

/-!
# Shortest decimals

The shortest decimal of a positive double has the fewest digits among those that read back as the
double, and among those of that length it is the nearest; of two equally near ones the even digit
wins. The search tries one digit after another in exact arithmetic.
-/

namespace Offside.Decimal

open Offside.Number

/-- The decimal number `digits * 10 ^ exponent`. -/
structure Scaled where
  /-- The significant digits, read as a whole number. -/
  digits : Nat
  /-- The power of ten that the digits count. -/
  exponent : Int
  deriving DecidableEq

/-- A positive number with the room around it: all numbers from `value - below` to `value + above`,
each over `unit`, round to the same double, the ends too if `closed`. -/
structure Target where
  /-- The number itself, over `unit`. -/
  value : Nat
  /-- How far the room reaches below the number. -/
  below : Nat
  /-- How far the room reaches above the number. -/
  above : Nat
  /-- The common denominator. -/
  unit : Nat
  /-- Whether the ends of the room belong to it. -/
  closed : Bool

/-- The numbers that round to the double `mantissa * 2 ^ exponent`. The room below a power of two is
half as wide, except at the least exponent; the ends round to an even mantissa. -/
def Target.ofDouble (mantissa : Nat) (exponent : Int) : Target :=
  let scale := twoTo (exponent - 2).toNat
  let narrow := mantissa == twoTo 52 && decide (leastExponent < exponent)
  { value := 4 * mantissa * scale
    below := (if narrow then 1 else 2) * scale
    above := 2 * scale
    unit := twoTo (2 - exponent).toNat
    closed := mantissa % 2 == 0 }

/-- Whether `point / unit` lies in the room of a target. -/
def Target.admits (target : Target) (point : Nat) : Bool :=
  if target.closed then
    decide (target.value ≤ point + target.below) && decide (point ≤ target.value + target.above)
  else
    decide (target.value < point + target.below) && decide (point < target.value + target.above)

/-- The target with numbers counted in units of `10 ^ exponent`. -/
def Target.inUnitsOf (target : Target) (exponent : Int) : Target :=
  let up := tenTo (-exponent).toNat
  { value := target.value * up
    below := target.below * up
    above := target.above * up
    unit := target.unit * tenTo exponent.toNat
    closed := target.closed }

/-- The better of the two whole numbers next to the target that the target admits, if any. -/
def Target.whole? (target : Target) : Option Nat :=
  let low := target.value / target.unit
  let below := low * target.unit
  let above := (low + 1) * target.unit
  match target.admits below, target.admits above with
  | true, true =>
    let down := target.value - below
    let up := above - target.value
    if down < up || (down == up && low % 2 == 0) then some low else some (low + 1)
  | true, false => some low
  | false, true => some (low + 1)
  | false, false => none

/-- How many of the first `bound` powers of ten it takes to lift `value / unit` to at least one. -/
def stepsToOne (value unit : Nat) : Nat → Nat
  | 0 => 0
  | bound + 1 => if unit ≤ value then 0 else stepsToOne (value * 10) unit bound + 1

/-- The exponent of the first significant digit of `value / unit`. -/
def leadingExponent (value unit : Nat) : Int :=
  let whole := value / unit
  if whole = 0 then -(stepsToOne value unit 400 : Int)
  else ((Nat.toDigits 10 whole).length : Int) - 1

/-- Drop the zeros at the end of the digits, at most `bound` of them. -/
def Scaled.trimmed (decimal : Scaled) : Nat → Scaled
  | 0 => decimal
  | bound + 1 =>
    if decimal.digits % 10 == 0 then
      Scaled.trimmed ⟨decimal.digits / 10, decimal.exponent + 1⟩ bound
    else decimal

/-- The shortest decimal that reads back as the positive double `mantissa * 2 ^ exponent`: seventeen
digits always suffice. -/
def shortest (mantissa : Nat) (exponent : Int) : Scaled :=
  let target := Target.ofDouble mantissa exponent
  let leading := leadingExponent target.value target.unit
  let found := (List.range 17).findSome? fun (length : Nat) =>
    let last := leading - (length : Int)
    (target.inUnitsOf last).whole?.map fun digits => (⟨digits, last⟩ : Scaled)
  (found.getD ⟨0, 0⟩).trimmed 17

/-- Where positional writing of a number ends and how an exponent is written. -/
structure Style where
  /-- Least exponent of the first digit that is written positionally. -/
  positionalFrom : Int
  /-- Exponent of the first digit from which on an exponent is written. -/
  positionalBelow : Int
  /-- Least number of digits of a written exponent. -/
  exponentWidth : Nat

/-- The sign and digits of a written exponent. -/
def exponentText (style : Style) (exponent : Int) : String :=
  let digits := Nat.toDigits 10 exponent.natAbs
  (if exponent < 0 then "-" else "+") ++
    String.ofList (List.replicate (style.exponentWidth - digits.length) '0' ++ digits)

/-- A positive decimal in a style; a whole number keeps one zero after the point. -/
def Scaled.text (style : Style) (decimal : Scaled) : String :=
  let digits := Nat.toDigits 10 decimal.digits
  let leading := decimal.exponent + digits.length - 1
  if leading < style.positionalFrom || style.positionalBelow ≤ leading then
    let fraction := digits.drop 1
    String.ofList (digits.take 1) ++
      (if fraction.isEmpty then "" else "." ++ String.ofList fraction) ++
      "e" ++ exponentText style leading
  else if leading < 0 then
    "0." ++ String.ofList (List.replicate (-leading - 1).toNat '0' ++ digits)
  else
    let places := leading.toNat + 1
    let padded := digits ++ List.replicate (places - digits.length) '0'
    let fraction := padded.drop places
    String.ofList (padded.take places) ++ "." ++
      (if fraction.isEmpty then "0" else String.ofList fraction)

/-- Numbers are shown positionally from `0.0001` up to below `10 ^ 16`, and otherwise with an
exponent of at least two digits. -/
def displayStyle : Style := ⟨-4, 16, 2⟩

/-- The text of a double. -/
def floatText (x : Float) : String :=
  match decode x with
  | .undefined => "nan"
  | .infinite negative => if negative then "-inf" else "inf"
  | .finite negative mantissa exponent =>
    (if negative then "-" else "") ++
      (if mantissa = 0 then "0.0" else (shortest mantissa exponent).text displayStyle)

end Offside.Decimal
