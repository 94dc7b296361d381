import Offside.Evaluation.World
import Offside.Value.Equality

/-!
# Operators on values
-/

namespace Offside.Eval

/-- The fault of operands that an operator does not take. -/
def unsupported (operator : BinaryOperator) (left right : Value) (location : Location) :
    Eval Value :=
  fail .typeMismatch
    ("unsupported operand types for '" ++ operator.text ++ "': " ++ left.typeName ++ " and " ++
      right.typeName) location

/-- The items of a list, or the elements of a range written out. -/
def writtenOut? : Value → Option (Except Overflow (List Value))
  | .list items => some (.ok items)
  | .range low high => some ((Value.countRange low high).map (Value.integersFrom low))
  | _ => none

/-- The truth of a comparison of numbers. -/
def compareNumerals (operator : BinaryOperator) (left right : Numeral) : Bool :=
  match operator with
  | .less => left.less right
  | .greater => right.less left
  | .lessEqual => left.lessEqual right
  | _ => right.lessEqual left

/-- The truth of a comparison of texts, by code points. -/
def compareTexts (operator : BinaryOperator) (left right : String) : Bool :=
  match operator with
  | .less => decide (left < right)
  | .greater => decide (right < left)
  | .lessEqual => decide (left ≤ right)
  | _ => decide (right ≤ left)

/-- The comparison of two numbers or of two texts. -/
def comparison (operator : BinaryOperator) (left right : Value) (location : Location) :
    Eval Value :=
  match left, right, left.numeral?, right.numeral? with
  | .string left, .string right, _, _ => pure (.bool (compareTexts operator left right))
  | _, _, some left, some right => pure (.bool (compareNumerals operator left right))
  | _, _, _, _ => unsupported operator left right location

/-- The list of the elements of two lists or ranges. -/
def concatenation (left right : Value) (location : Location) : Eval Value :=
  match writtenOut? left, writtenOut? right with
  | some items, some items' => do
    let items ← ofNumbers items
    let items' ← ofNumbers items'
    return .list (items ++ items')
  | _, _ => unsupported .concat left right location

/-- The result of an arithmetic operator on numbers. -/
def calculate (operator : BinaryOperator) (left right : Numeral) (location : Location) :
    Eval Value := do
  let result (number : Except Overflow Numeral) : Eval Value :=
    (ofNumbers number).map .ofNumeral
  let quotient (number : Except Overflow Numeral) : Eval Value :=
    if right.isZero then
      fail .divisionByZero ("division by zero in '" ++ operator.text ++ "'") location
    else result number
  match operator with
  | .add => result (left.add right)
  | .subtract => result (left.subtract right)
  | .multiply => result (left.multiply right)
  | .divide => quotient (left.divide right)
  | .floorDivide => quotient (left.floorDivide right)
  | _ => quotient (left.modulo right)

/-- The result of an arithmetic operator; texts can be added too. -/
def arithmetic (operator : BinaryOperator) (left right : Value) (location : Location) :
    Eval Value :=
  match operator, left, right, left.numeral?, right.numeral? with
  | .add, .string left, .string right, _, _ => pure (.string (left ++ right))
  | _, _, _, some left, some right => calculate operator left right location
  | _, _, _, _, _ => unsupported operator left right location

/-- The result of an operator whose operands are both evaluated. -/
def operation (operator : BinaryOperator) (left right : Value) (location : Location) :
    Eval Value :=
  match operator with
  | .equal => do
    let same ← ofNumbers (left.equal right)
    return .bool same
  | .notEqual => do
    let same ← ofNumbers (left.equal right)
    return .bool !same
  | .concat => concatenation left right location
  | .less | .greater | .lessEqual | .greaterEqual => comparison operator left right location
  | _ => arithmetic operator left right location

/-- The result of a prefix operator. -/
def unaryOperation (operator : UnaryOperator) (operand : Value) (location : Location) :
    Eval Value :=
  match operator with
  | .negate =>
    match operand.numeral? with
    | some number => pure (.ofNumeral number.negate)
    | none => fail .typeMismatch ("cannot negate " ++ operand.typeName) location
  | .not =>
    match operand with
    | .bool value => pure (.bool !value)
    | _ => fail .typeMismatch ("'!' expects a Bool, found " ++ operand.typeName) location

/-- The range between two integers. -/
def rangeBetween (low high : Value) (location : Location) : Eval Value :=
  let wrong (bound : Value) : Eval Value :=
    fail .typeMismatch ("range bounds must be Int, found " ++ bound.typeName) location
  match low, high with
  | .int low, .int high => pure (.range low high)
  | .int _, high => wrong high
  | low, _ => wrong low

/-- The new value of the name `name` under an update of `current` by `value`. -/
def updated (operator : UpdateOperator) (name : String) (current value : Value)
    (location valueLocation : Location) : Eval Value :=
  match operator with
  | .append =>
    match current, value with
    | .string current, .string value => pure (.string (current ++ value))
    | .string _, value =>
      fail .typeMismatch ("cannot append " ++ value.typeName ++ " to String '" ++ name ++ "'")
        valueLocation
    | current, _ =>
      fail .typeMismatch
        ("'+=' needs a String binding, but '" ++ name ++ "' is " ++ current.typeName) location
  | .concat =>
    match current, writtenOut? value with
    | .list items, some items' => do
      let items' ← ofNumbers items'
      return .list (items ++ items')
    | .list _, none =>
      fail .typeMismatch
        ("cannot concatenate " ++ value.typeName ++ " onto List '" ++ name ++ "'") valueLocation
    | current, _ =>
      fail .typeMismatch
        ("'++=' needs a List binding, but '" ++ name ++ "' is " ++ current.typeName) location

end Offside.Eval
