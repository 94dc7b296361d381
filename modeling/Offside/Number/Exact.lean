import Offside.Number.Double

/-!
# Exact comparison of numbers

Integers and doubles are compared by their exact values, without rounding an integer to a double.
The infinities lie beyond all integers, and what is not a number equals nothing and has no place in
the order.
-/

namespace Offside.Number

/-- The exact value of an integer or a double. -/
inductive Exact where
  | finite (value : Rat)
  | infinite (negative : Bool)
  | undefined
  deriving DecidableEq

namespace Exact

/-- The exact value of an integer. -/
def ofInt (n : Int) : Exact := .finite n

/-- The exact value of a double; both zeros have the same. -/
def ofFloat (x : Float) : Exact :=
  match decode x with
  | .finite negative mantissa exponent =>
    let magnitude : Rat := mantissa * 2 ^ exponent
    .finite (if negative then -magnitude else magnitude)
  | .infinite negative => .infinite negative
  | .undefined => .undefined

/-- Two numbers are equal if they have the same value. -/
def equal (left right : Exact) : Bool :=
  match left, right with
  | .finite x, .finite y => decide (x = y)
  | .infinite x, .infinite y => x == y
  | _, _ => false

/-- One number is less than another one. -/
def less (left right : Exact) : Bool :=
  match left, right with
  | .finite x, .finite y => decide (x < y)
  | .finite _, .infinite negative => !negative
  | .infinite negative, .finite _ => negative
  | .infinite x, .infinite y => x && !y
  | _, _ => false

end Exact

end Offside.Number
