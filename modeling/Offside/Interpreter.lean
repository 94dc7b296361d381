import Offside.Evaluation
import Offside.Source

/-!
# Interpreters

An interpreter runs one program after the other. The bindings at the top level stay from one program
to the next until they are reset; the count of steps and the output start anew with each program.
-/

namespace Offside

/-- An interpreter between two programs. -/
structure Interpreter where
  /-- What was chosen about evaluations. -/
  settings : Settings
  /-- The world as the last program left it. -/
  world : World
  /-- Position of the scope of the top level. -/
  globals : Nat

namespace Interpreter

/-- The scopes before the first program: the built-in functions, and an empty top level in them. -/
def initialScopes : Scopes Value :=
  let builtins := Builtin.all.foldl
    (fun scopes function =>
      scopes.define Eval.builtinScope function.name (.builtin function [] none))
    Scopes.root
  builtins.push Eval.builtinScope

/-- A new interpreter. -/
def new (settings : Settings) : Interpreter :=
  ⟨settings, ⟨initialScopes, 0, "", 0, []⟩, 1⟩

/-- An amount of fuel that no evaluation uses up in practice. -/
def ampleFuel : Nat := 0x4000000000000000

/-- Run a program: its value, or why it stops, and the interpreter afterwards. Room on the stack is
asked for before the program is evaluated. -/
def run (interpreter : Interpreter) (program : Program) (fuel : Nat) :
    Except Stop Value × Interpreter :=
  let world := { interpreter.world with steps := 0, output := "", calls := [] }
  let evaluation := do
    Eval.ofNumbers interpreter.settings.reserve
    Eval.runBlock interpreter.settings (Eval.evaluate interpreter.settings fuel)
      ⟨interpreter.globals, .top⟩ program
  match evaluation.run world with
  | .ok value world => (.ok value, { interpreter with world := world })
  | .error stop world => (.error stop, { interpreter with world := world })

/-- Forget the bindings of the top level. -/
def reset (interpreter : Interpreter) : Interpreter :=
  let scopes := interpreter.world.scopes
  { interpreter with
    world := { interpreter.world with scopes := scopes.push Eval.builtinScope }
    globals := scopes.size }

/-- The bindings of the top level, in the order of definition. -/
def bindings (interpreter : Interpreter) : List (String × Value) :=
  match interpreter.world.scopes.get? interpreter.globals with
  | some scope => scope.bindings
  | none => []

end Interpreter

/-- Why a source text does not run to a value. -/
def Rejection.stop (source : String) (rejection : Rejection) : Stop :=
  match rejection.fault source with
  | .ok wrong => .fault wrong
  | .error refused => .overflow refused

/-- A reason to stop, with the line of source text to quote. -/
def Stop.withSource (source : String) : Stop → Stop
  | .fault wrong => .fault (wrong.withSource source)
  | stop => stop

/-- A full stack as it is reported. By then it is no longer known where that was. -/
def Fault.fullStack : Fault := ⟨.limitExceeded, Overflow.stack.message, none, none⟩

/-- Run a source text in a new interpreter: its value or why it stops, and the text written. -/
def runSource (settings : Settings) (source : String) (file : Option String) (fuel : Nat) :
    Except Stop Value × String :=
  match Source.program source file with
  | .error rejection => (.error (rejection.stop source), "")
  | .ok program =>
    let (result, interpreter) := (Interpreter.new settings).run program fuel
    (result.mapError (Stop.withSource source), interpreter.world.output)

end Offside
