import Offside.Evaluation.Operators
import Offside.Value.Display

/-!
# The built-in functions

A built-in function reports faults at the place of its call. Those that take a function call it with
`apply`.
-/

namespace Offside.Eval

/-- The elements of a list, a tuple or a range. -/
def expectSequence (function : Builtin) (value : Value) (location : Location) : Eval Elements :=
  match Elements.ofSequence? value with
  | some elements => pure elements
  | none =>
    fail .typeMismatch ("'" ++ function.name ++ "' expects a List, found " ++ value.typeName)
      location

/-- A text. -/
def expectString (function : Builtin) (value : Value) (location : Location) : Eval String :=
  match value with
  | .string text => pure text
  | _ =>
    fail .typeMismatch ("'" ++ function.name ++ "' expects a String, found " ++ value.typeName)
      location

/-- An integer. -/
def expectInt (function : Builtin) (value : Value) (location : Location) : Eval Int :=
  match value with
  | .int n => pure n
  | _ =>
    fail .typeMismatch ("'" ++ function.name ++ "' expects an Int, found " ++ value.typeName)
      location

/-- The number of elements, unless it is too large. -/
def countElements : Elements → Except Overflow Nat
  | .values items => .ok items.length
  | .integers _ count => if Overflow.lengthLimit < count then .error .length else .ok count

/-- The results of a function on all elements. -/
def mapElements (apply : Value → List Value → Eval Value) (elements : Elements)
    (function : Value) : Eval Value := do
  let results ← elements.foldM (fun (results : List Value) item => do
    let result ← apply function [item]
    return result :: results) []
  return .list results.reverse

/-- The elements for which a predicate holds. -/
def filterElements (apply : Value → List Value → Eval Value) (elements : Elements)
    (predicate : Value) (location : Location) : Eval Value := do
  let kept ← elements.foldM (fun (kept : List Value) item => do
    match ← apply predicate [item] with
    | .bool true => return item :: kept
    | .bool false => return kept
    | verdict =>
      fail .typeMismatch
        ("'filter' predicate must return a Bool, found " ++ verdict.typeName) location) []
  return .list kept.reverse

/-- The texts of a list of texts. -/
def textsOf (elements : Elements) (location : Location) : Eval (List String) := do
  let texts ← elements.foldM (fun (texts : List String) item => do
    match item with
    | .string text => return text :: texts
    | item =>
      fail .typeMismatch
        ("'join' expects a List of String, found an element of type " ++ item.typeName)
        location) []
  return texts.reverse

/-- The sum of a list of numbers. -/
def sumElements (elements : Elements) (location : Location) : Eval Value := do
  let total ← elements.foldM (fun (total : Numeral) item => do
    match item.numeral? with
    | some number => ofNumbers (total.add number)
    | none =>
      fail .typeMismatch
        ("'sum' expects a List of numbers, found an element of type " ++ item.typeName)
        location) (.int 0)
  return .ofNumeral total

/-- Write a value and a line feed. -/
def writeLine (value : Value) : Eval Value := do
  let text ← ofNumbers value.display
  write (text ++ "\n")
  return .unit

/-- Run a built-in function on as many arguments as it takes. -/
def runBuiltin (apply : Value → List Value → Eval Value) (function : Builtin)
    (arguments : List Value) (location : Location) : Eval Value := do
  match function, arguments with
  | .map, [items, mapper] =>
    let elements ← expectSequence function items location
    mapElements apply elements mapper
  | .filter, [items, predicate] =>
    let elements ← expectSequence function items location
    filterElements apply elements predicate location
  | .fold, [items, initial, combine] =>
    let elements ← expectSequence function items location
    elements.foldM (fun result item => apply combine [result, item]) initial
  | .join, [items, separator] =>
    let elements ← expectSequence function items location
    let separator ← expectString function separator location
    let texts ← textsOf elements location
    return .string (String.intercalate separator texts)
  | .reverse, [.string text] => return .string (String.ofList text.toList.reverse)
  | .reverse, [items] =>
    let elements ← expectSequence function items location
    let _ ← ofNumbers (countElements elements)
    return .list elements.toList.reverse
  | .range, [low, high] =>
    let low ← expectInt function low location
    let high ← expectInt function high location
    return .range low high
  | .length, [.string text] => return .int text.length
  | .length, [items] =>
    let elements ← expectSequence function items location
    let count ← ofNumbers (countElements elements)
    return .int count
  | .sum, [items] =>
    let elements ← expectSequence function items location
    sumElements elements location
  | .str, [value] =>
    let text ← ofNumbers value.display
    return .string text
  | .print, [value] => writeLine value
  | .println, [value] => writeLine value
  | _, _ => return .unit

end Offside.Eval
