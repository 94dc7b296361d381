import Offside.Value

/-!
# Equality of values

Values of different types are different, except that integers and doubles are compared as numbers
and a range equals the list of its elements. Functions are compared by identity. The only comparison
that is refused is that of a range too long to be counted.
-/

namespace Offside.Value

/-- Whether a value is the integer `n`, or the double equal to it. -/
def equalsInt (n : Int) (value : Value) : Bool :=
  match value.numeral? with
  | some number => number.equal (.int n)
  | none => false

/-- Whether the items are the integers from `low` on. -/
def equalIntegers (low : Int) : List Value → Bool
  | [] => true
  | item :: rest => equalsInt low item && equalIntegers (low + 1) rest

/-- Whether the items of a list are the elements of a range. -/
def equalRange (items : List Value) (low high : Int) : Except Overflow Bool := do
  let length ← countRange low high
  return items.length == length && equalIntegers low items

/-- Whether two ranges have the same elements. -/
def equalRanges (low high low' high' : Int) : Except Overflow Bool := do
  let length ← countRange low high
  let length' ← countRange low' high'
  return length == length' && (length == 0 || low == low')

mutual

/-- Equality of values. -/
def equal : Value → Value → Except Overflow Bool
  | .bool left, .bool right => .ok (left == right)
  | .string left, .string right => .ok (left == right)
  | .unit, .unit => .ok true
  | .list left, .list right =>
    if left.length == right.length then equalAll left right else .ok false
  | .tuple left, .tuple right =>
    if left.length == right.length then equalAll left right else .ok false
  | .list items, .range low high => equalRange items low high
  | .range low high, .list items => equalRange items low high
  | .range low high, .range low' high' => equalRanges low high low' high'
  | .closure _ _ _ _ _ identity, .closure _ _ _ _ _ identity' => .ok (identity == identity')
  | .builtin function _ identity, .builtin function' _ identity' =>
    .ok (function == function' && identity == identity')
  | left, right =>
    match left.numeral?, right.numeral? with
    | some left, some right => .ok (left.equal right)
    | _, _ => .ok false

/-- Equality of lists of values of the same length, up to the first difference. -/
def equalAll : List Value → List Value → Except Overflow Bool
  | left :: lefts, right :: rights => do
    if ← equal left right then equalAll lefts rights else return false
  | _, _ => .ok true

end

end Offside.Value
