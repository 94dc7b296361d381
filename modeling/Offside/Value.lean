import Offside.Number.Arithmetic
import Offside.Tree

/-!
# Values

The values of the language: truth values, numbers, texts, the unit, lists, tuples, ranges and
functions. A function is a closure over the scope where it was made or a built-in, and either may
hold some of its arguments already. Functions have an identity, by which alone they are compared.
-/

namespace Offside

/-- The built-in functions. -/
inductive Builtin where
  | map
  | filter
  | fold
  | join
  | reverse
  | range
  | length
  | sum
  | str
  | print
  | println
  deriving DecidableEq

namespace Builtin

/-- All built-in functions. -/
def all : List Builtin :=
  [map, filter, fold, join, reverse, range, length, sum, str, print, println]

/-- The name to which a built-in function is bound. -/
def name : Builtin → String
  | map => "map"
  | filter => "filter"
  | fold => "fold"
  | join => "join"
  | reverse => "reverse"
  | range => "range"
  | length => "length"
  | sum => "sum"
  | str => "str"
  | print => "print"
  | println => "println"

/-- The number of arguments of a built-in function. -/
def arity : Builtin → Nat
  | map | filter | join | range => 2
  | fold => 3
  | reverse | length | sum | str | print | println => 1

/-- The number of arguments that a built-in function still wants when it holds some. It is called
before it holds all of them, so one is missing at least. -/
def wanted (builtin : Builtin) (held : Nat) : Nat := max 1 (builtin.arity - held)

theorem wanted_pos (builtin : Builtin) (held : Nat) : 0 < builtin.wanted held :=
  Nat.le_max_left 1 _

theorem wanted_of_lt {builtin : Builtin} {held : Nat} (few : held < builtin.arity) :
    builtin.wanted held = builtin.arity - held :=
  Nat.max_eq_right (Nat.sub_pos_of_lt few)

end Builtin

/-- The values of the language. -/
inductive Value where
  | bool (value : Bool)
  | int (value : Int)
  | float (value : Float)
  | string (value : String)
  | unit
  | list (items : List Value)
  | tuple (items : List Value)
  /-- The integers from `low` to `high`, both included. -/
  | range (low high : Int)
  /-- A function with the scope where it was made and the arguments it holds already. -/
  | closure (parameters : List Pattern) (body : Block Node) (scope : Nat) (bound : List Value)
      (name : Option String) (identity : Nat)
  /-- A built-in function with the arguments it holds already; the one that a name is bound to at
  the start has no identity of its own. -/
  | builtin (function : Builtin) (bound : List Value) (identity : Option Nat)

instance : Inhabited Value := ⟨.unit⟩

namespace Value

/-- The name of a value's type. -/
def typeName : Value → String
  | .bool _ => "Bool"
  | .int _ => "Int"
  | .float _ => "Float"
  | .string _ => "String"
  | .unit => "Unit"
  | .list _ => "List"
  | .tuple _ => "Tuple"
  | .range _ _ => "Range"
  | .closure .. => "Function"
  | .builtin .. => "Builtin"

/-- A value as a number. -/
def numeral? : Value → Option Numeral
  | .int n => some (.int n)
  | .float x => some (.float x)
  | _ => none

/-- A number as a value. -/
def ofNumeral : Numeral → Value
  | .int n => .int n
  | .float x => .float x

/-- The number of integers from `low` to `high`. -/
def rangeLength (low high : Int) : Nat := (high + 1 - low).toNat

/-- The number of integers from `low` to `high`, unless it is too large to be counted. -/
def countRange (low high : Int) : Except Overflow Nat :=
  let length := rangeLength low high
  if Overflow.lengthLimit < length then .error .length else .ok length

/-- The `count` integers from `low` on, as values. -/
def integersFrom (low : Int) : (count : Nat) → List Value
  | 0 => []
  | count + 1 => .int low :: integersFrom (low + 1) count

end Value

/-- What can be gone through element by element; a range is never written out. -/
inductive Elements where
  | values (items : List Value)
  /-- The `count` integers from `low` on. -/
  | integers (low : Int) (count : Nat)

namespace Elements

/-- The elements of a list, a tuple or a range. -/
def ofSequence? : Value → Option Elements
  | .list items => some (.values items)
  | .tuple items => some (.values items)
  | .range low high => some (.integers low (Value.rangeLength low high))
  | _ => none

/-- The elements of a list, a tuple or a range, or the characters of a text. -/
def ofIterable? : Value → Option Elements
  | .string text => some (.values (text.toList.map fun c => .string (String.singleton c)))
  | value => ofSequence? value

/-- The elements as a list. -/
def toList : Elements → List Value
  | .values items => items
  | .integers low count => Value.integersFrom low count

/-- Go through a list with an accumulator. -/
def foldItems {m : Type → Type} [Monad m] {β : Type} (step : β → Value → m β) :
    List Value → β → m β
  | [], result => pure result
  | item :: rest, result => do
    let result ← step result item
    foldItems step rest result

/-- Go through the `count` integers from `low` on with an accumulator. -/
def foldIntegers {m : Type → Type} [Monad m] {β : Type} (step : β → Value → m β) :
    (count : Nat) → (low : Int) → β → m β
  | 0, _, result => pure result
  | count + 1, low, result => do
    let result ← step result (.int low)
    foldIntegers step count (low + 1) result

/-- Go through elements with an accumulator, first element first. -/
@[specialize]
def foldM {m : Type → Type} [Monad m] {β : Type} (step : β → Value → m β) (initial : β)
    (elements : Elements) : m β :=
  match elements with
  | .values items => foldItems step items initial
  | .integers low count => foldIntegers step count low initial

end Elements

end Offside
