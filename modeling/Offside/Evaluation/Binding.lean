import Offside.Evaluation.World

/-!
# Binding patterns

A pattern that is a name is bound to the whole value, and a tuple pattern to the elements of a tuple
of the same length.
-/

namespace Offside.Eval

/-- Position of the scope that holds the built-in functions. -/
def builtinScope : Nat := 0

/-- Bind a name: with `rebind` in the nearest scope of the program that binds it already, and
otherwise in the scope itself. -/
def bindName (rebind : Bool) (scope : Nat) (name : String) (value : Value) : Eval Unit := do
  let world ← get
  match if rebind then world.scopes.find? name scope else none with
  | some owner => define (if owner = builtinScope then scope else owner) name value
  | none => define scope name value

mutual

/-- Bind the names of a pattern to the parts of a value. -/
def bindPattern (rebind : Bool) (scope : Nat) : Pattern → Value → Eval Unit
  | .name name _, value => bindName rebind scope name value
  | .tuple elements location, .tuple items =>
    if items.length = elements.length then bindPatterns rebind scope elements items
    else
      fail .patternMismatch
        ("tuple pattern has " ++ toString elements.length ++ " elements but the value has " ++
          toString items.length) location
  | .tuple elements location, value =>
    fail .patternMismatch
      ("cannot destructure " ++ value.typeName ++ " with a " ++ toString elements.length ++
        "-element tuple pattern") location

/-- Bind the names of several patterns, one after the other, to the parts of as many values. -/
def bindPatterns (rebind : Bool) (scope : Nat) : List Pattern → List Value → Eval Unit
  | pattern :: patterns, value :: values => do
    bindPattern rebind scope pattern value
    bindPatterns rebind scope patterns values
  | _, _ => pure ()

end

end Offside.Eval
