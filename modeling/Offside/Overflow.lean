/-!
# Limits of number handling and of the stack

Whole numbers are unbounded, but some operations on them are refused: reading and writing a number
of too many digits, making a double of a number beyond the doubles, and counting an overlong range.
Calls within each other need room on a stack, which can be asked for up to a limit.
-/

namespace Offside

/-- An operation that is refused. -/
inductive Overflow where
  /-- Reading an integer literal of `digits` digits. -/
  | literal (digits : Nat)
  /-- Writing an integer of too many digits. -/
  | display
  /-- Making a double of an integer beyond the doubles. -/
  | conversion
  /-- Dividing integers whose quotient lies beyond the doubles. -/
  | quotient
  /-- Counting a range of more than `2 ^ 63 - 1` elements. -/
  | length
  /-- Asking for room for more than `2 ^ 31 - 1` calls within each other. -/
  | room
  /-- Calling a function when the stack is full. -/
  | stack
  deriving DecidableEq

namespace Overflow

/-- The largest number of digits of an integer that is read or written. -/
def digitLimit : Nat := 4300

/-- The largest number of elements that are counted. -/
def lengthLimit : Nat := 0x7FFFFFFFFFFFFFFF

/-- The largest room on the stack that can be asked for. -/
def roomLimit : Nat := 0x7FFFFFFF

/-- The report of a refused operation. -/
def message : Overflow → String
  | literal digits =>
    "Exceeds the limit (4300 digits) for integer string conversion: value has " ++
      toString digits ++ " digits; use sys.set_int_max_str_digits() to increase the limit"
  | display =>
    "Exceeds the limit (4300 digits) for integer string conversion; " ++
      "use sys.set_int_max_str_digits() to increase the limit"
  | conversion => "int too large to convert to float"
  | quotient => "integer division result too large for a float"
  | length => "Python int too large to convert to C ssize_t"
  | room => "Python int too large to convert to C int"
  | stack => "maximum recursion depth exceeded"

end Overflow

end Offside
