import Offside.Scope
import Offside.Settings
import Offside.Value

/-!
# The world of an evaluation

An evaluation reads and changes a world: the scopes with their bindings, the number of executed
statements, the output, and the identities given to functions so far. It ends with a value, or stops
with a fault of the program, with a number out of bounds, on a full stack, or because its fuel has
run out. In each case what the world has become is known.
-/

namespace Offside

/-- A call that was made. -/
inductive Call where
  | builtin (name : String)
  /-- A call of a closure, with the number of its arguments and of the closures called around it. -/
  | closure (name : String) (arguments depth : Nat)

/-- What an evaluation changes. -/
structure World where
  /-- All scopes made so far. -/
  scopes : Scopes Value
  /-- The number of statements executed. -/
  steps : Nat
  /-- The text written. -/
  output : String
  /-- The number of identities given to functions. -/
  identities : Nat
  /-- The calls made, the latest first. -/
  calls : List Call

/-- Why an evaluation ends without a value. -/
inductive Stop where
  /-- The program is at fault. -/
  | fault (fault : Fault)
  /-- A number is out of bounds, or the stack is full. -/
  | overflow (overflow : Overflow)
  /-- The fuel has run out. -/
  | exhausted

/-- An evaluation with a result of type `α`. -/
abbrev Eval := EStateM Stop World

/-- The numbers of calls around an expression. -/
structure Depth where
  /-- The number of calls of closures. -/
  closures : Nat
  /-- The number of calls of built-in functions. -/
  builtins : Nat

namespace Depth

/-- No call is around the top level. -/
def top : Depth := ⟨0, 0⟩

/-- The number of all calls. -/
def calls (depth : Depth) : Nat := depth.closures + depth.builtins

/-- Within one more call of a closure. -/
def inClosure (depth : Depth) : Depth := { depth with closures := depth.closures + 1 }

/-- Within one more call of a built-in function. -/
def inBuiltin (depth : Depth) : Depth := { depth with builtins := depth.builtins + 1 }

theorem calls_inClosure (depth : Depth) : depth.inClosure.calls = depth.calls + 1 :=
  Nat.succ_add _ _

theorem calls_inBuiltin (depth : Depth) : depth.inBuiltin.calls = depth.calls + 1 := rfl

theorem closures_le_calls (depth : Depth) : depth.closures ≤ depth.calls := Nat.le_add_right _ _

end Depth

/-- Where an expression is evaluated. -/
structure Context where
  /-- The current scope. -/
  scope : Nat
  /-- The calls around it. -/
  depth : Depth

namespace Eval

/-- Stop with a fault at a location. -/
def fail {α : Type} (kind : Fault.Kind) (message : String) (location : Location) : Eval α :=
  throw (.fault (.atLocation kind message location))

/-- The result of a calculation with numbers. -/
def ofNumbers {α : Type} : Except Overflow α → Eval α
  | .ok value => pure value
  | .error overflow => throw (.overflow overflow)

/-- The result of an access to scopes. -/
def ofScopes {α : Type} : Except Fault α → Eval α
  | .ok value => pure value
  | .error fault => throw (.fault fault)

/-- Count a statement, and stop if there are too many. -/
def tick (settings : Settings) (location : Location) : Eval Unit := do
  modify fun world => { world with steps := world.steps + 1 }
  match settings.maxSteps with
  | none => pure ()
  | some limit =>
    if limit < (← get).steps then
      fail .limitExceeded ("step limit of " ++ toString limit ++ " exceeded") location

/-- A new identity. -/
def newIdentity : Eval Nat :=
  modifyGet fun world => (world.identities, { world with identities := world.identities + 1 })

/-- A new empty scope within the one at `parent`. -/
def newScope (parent : Nat) : Eval Nat :=
  modifyGet fun world => (world.scopes.size, { world with scopes := world.scopes.push parent })

/-- Bind a name in a scope. -/
def define (scope : Nat) (name : String) (value : Value) : Eval Unit :=
  modify fun world => { world with scopes := world.scopes.define scope name value }

/-- The value of a name seen from a scope. -/
def lookup (scope : Nat) (name : String) (location : Location) : Eval Value := do
  ofScopes ((← get).scopes.lookup name scope (some location))

/-- Bind a name anew in the nearest scope that binds it. -/
def assign (scope : Nat) (name : String) (value : Value) (location : Location) : Eval Unit := do
  let scopes ← ofScopes ((← get).scopes.assign name value scope (some location))
  modify fun world => { world with scopes := scopes }

/-- Write a text. -/
def write (text : String) : Eval Unit :=
  modify fun world => { world with output := world.output ++ text }

/-- Remember a call. -/
def note (call : Call) : Eval Unit :=
  modify fun world => { world with calls := call :: world.calls }

/-- Remember a call of a built-in function, if the stack has room for it. Calls of closures have a
limit of their own, which is below the room on the stack. -/
def enterBuiltin (settings : Settings) (depth : Depth) (builtin : Builtin) : Eval Unit :=
  if settings.room ≤ depth.calls then throw (.overflow .stack)
  else note (.builtin builtin.name)

end Eval

end Offside
