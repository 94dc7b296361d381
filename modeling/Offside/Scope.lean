import Offside.Fault
import Offside.Text.Quoted

/-!
# Scopes

A scope binds names to values and lies in another scope or is a root. Scopes are kept in a store and
named by their position in it; a scope always comes after the one it lies in, so the way outwards
ends.
-/

namespace Offside

/-- A scope of the store. -/
structure Scope (α : Type) where
  /-- Position of the scope that this one lies in. -/
  parent : Option Nat
  /-- Names and their values, in the order of definition. -/
  bindings : List (String × α)

namespace Scope

/-- The value that a name is bound to. -/
def get? {α : Type} (scope : Scope α) (name : String) : Option α :=
  scope.bindings.lookup name

/-- Bind a name in a list of bindings; a name that is bound already keeps its place. -/
def bind {α : Type} (name : String) (value : α) : List (String × α) → List (String × α)
  | [] => [(name, value)]
  | (bound, old) :: rest =>
    if bound == name then (bound, value) :: rest else (bound, old) :: bind name value rest

/-- Bind a name, in place of a binding that it has in this scope. -/
def define {α : Type} (scope : Scope α) (name : String) (value : α) : Scope α :=
  { scope with bindings := bind name value scope.bindings }

end Scope

/-- A store of scopes. -/
structure Scopes (α : Type) where
  /-- The scopes by position. -/
  table : Array (Scope α)

namespace Scopes

variable {α : Type}

/-- The store with one empty root scope, at position zero. -/
def root : Scopes α := ⟨#[⟨none, []⟩]⟩

/-- The number of scopes. -/
def size (scopes : Scopes α) : Nat := scopes.table.size

/-- The scope at a position. -/
def get? (scopes : Scopes α) (position : Nat) : Option (Scope α) := scopes.table[position]?

/-- Add an empty scope within the one at `parent`; its position is the former size of the store. -/
def push (scopes : Scopes α) (parent : Nat) : Scopes α :=
  ⟨scopes.table.push ⟨some parent, []⟩⟩

/-- Bind a name in the scope at a position. -/
def define (scopes : Scopes α) (position : Nat) (name : String) (value : α) : Scopes α :=
  ⟨scopes.table.modify position (·.define name value)⟩

/-- The positions from a scope outwards. -/
def chain (scopes : Scopes α) (position : Nat) : List Nat :=
  match scopes.get? position with
  | none => []
  | some scope =>
    position ::
      match scope.parent with
      | none => []
      | some parent => if parent < position then chain scopes parent else []
termination_by position

/-- The nearest scope that binds a name, from the one at `position` outwards. -/
def find? (scopes : Scopes α) (name : String) (position : Nat) : Option Nat :=
  match scopes.get? position with
  | none => none
  | some scope =>
    if (scope.get? name).isSome then some position
    else
      match scope.parent with
      | none => none
      | some parent => if parent < position then find? scopes name parent else none
termination_by position

/-- The value of a name, seen from the scope at `position`. -/
def value? (scopes : Scopes α) (name : String) (position : Nat) : Option α := do
  let owner ← scopes.find? name position
  let scope ← scopes.get? owner
  scope.get? name

/-- The names bound in a scope, in the order of definition. -/
def names (scopes : Scopes α) (position : Nat) : List String :=
  match scopes.get? position with
  | none => []
  | some scope => scope.bindings.map (·.1)

/-- Names in alphabetical order, each once. -/
def sorted (names : List String) : List String :=
  (names.mergeSort fun left right => decide (left ≤ right)).eraseReps

/-- The names that can be seen from a scope, in alphabetical order. -/
def visibleNames (scopes : Scopes α) (position : Nat) : List String :=
  sorted ((scopes.chain position).flatMap scopes.names)

/-- The fault of a name that cannot be seen from a scope. -/
def unbound (scopes : Scopes α) (name : String) (position : Nat) (location : Option Location) :
    Fault :=
  .unbound name (scopes.visibleNames position) location

/-- The value of a name seen from a scope, or the fault that it has none. -/
def lookup (scopes : Scopes α) (name : String) (position : Nat) (location : Option Location) :
    Except Fault α :=
  match scopes.value? name position with
  | some value => .ok value
  | none => .error (scopes.unbound name position location)

/-- Bind a name anew in the nearest scope that binds it. -/
def assign (scopes : Scopes α) (name : String) (value : α) (position : Nat)
    (location : Option Location) : Except Fault (Scopes α) :=
  match scopes.find? name position with
  | some owner => .ok (scopes.define owner name value)
  | none => .error (scopes.unbound name position location)

/-- A scope in short: the number of scopes around it, and its own names in alphabetical order. -/
def description (scopes : Scopes α) (position : Nat) : String :=
  let own := (sorted (scopes.names position)).map Text.quoted
  "Environment(depth=" ++ toString ((scopes.chain position).length - 1) ++
    ", names=[" ++ String.intercalate ", " own ++ "])"

end Scopes

end Offside
