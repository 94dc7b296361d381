import Offside.Proofs.Value.Linked

/-!
# The closures that values hold

A value holds the closures that are reached through its items and through the arguments that its
functions have already. Values are made from values, so a property of all closures carries over from
the operands of an operation to its result.
-/

namespace Offside

namespace Value

/-- All closures that a value holds have a property of their parameters, bodies and scopes. -/
inductive Holds (P : List Pattern → Block Node → Nat → Prop) : Value → Prop
  | bool (value : Bool) : Holds P (.bool value)
  | int (value : Int) : Holds P (.int value)
  | float (value : Float) : Holds P (.float value)
  | string (value : String) : Holds P (.string value)
  | unit : Holds P .unit
  | list {items : List Value} (each : ∀ item ∈ items, Holds P item) : Holds P (.list items)
  | tuple {items : List Value} (each : ∀ item ∈ items, Holds P item) : Holds P (.tuple items)
  | range (low high : Int) : Holds P (.range low high)
  | closure {parameters : List Pattern} {body : Block Node} {scope : Nat} {bound : List Value}
      {name : Option String} {identity : Nat} (here : P parameters body scope)
      (each : ∀ value ∈ bound, Holds P value) :
      Holds P (.closure parameters body scope bound name identity)
  | builtin {function : Builtin} {bound : List Value} {identity : Option Nat}
      (each : ∀ value ∈ bound, Holds P value) : Holds P (.builtin function bound identity)

section

variable {P Q : List Pattern → Block Node → Nat → Prop}

theorem Holds.mono (implies : ∀ parameters body scope, P parameters body scope →
    Q parameters body scope) {value : Value} (holds : Holds P value) : Holds Q value := by
  induction holds with
  | bool | int | float | string | unit | range => constructor
  | list _ ih => exact .list ih
  | tuple _ ih => exact .tuple ih
  | closure here _ ih => exact .closure (implies _ _ _ here) ih
  | builtin _ ih => exact .builtin ih

theorem holds_of_forall (all : ∀ parameters body scope, P parameters body scope) (value : Value) :
    Holds P value := by
  induction value using Value.induction with
  | bool | int | float | string | unit | range => constructor
  | list items ih => exact .list ih
  | tuple items ih => exact .tuple ih
  | closure parameters body scope bound name identity ih =>
      exact .closure (all parameters body scope) ih
  | builtin function bound identity ih => exact .builtin ih

end

end Value

end Offside
