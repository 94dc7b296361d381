import Offside.Interpreter
import Offside.Proofs.Evaluation.Coupling

/-!
# Evaluations that are interrupted

An evaluation is a function from worlds to worlds and says nothing of the worlds in between. They
are seen by stopping it halfway. An interrupted evaluation does all that the evaluation does, but it
pauses whenever a node is about to be evaluated, a value is about to be applied, or either has just
given a value, and it can be stopped there. If it never is, it is the evaluation itself.
-/

namespace Offside

/-- The moments at which an evaluation can be interrupted. -/
inductive Moment where
  /-- A node is about to be evaluated. -/
  | evaluating (context : Context) (node : Node)
  /-- A value is about to be applied to arguments. -/
  | applying (depth : Depth) (function : Value) (arguments : List Value) (location : Location)
  /-- A node or an application has just given a value. -/
  | giving (value : Value)

namespace Moment

/-- The scopes at hand. -/
def scopes : Moment → List Nat
  | .evaluating context _ => [context.scope]
  | .applying .. | .giving _ => []

/-- The values at hand. -/
def values : Moment → List Value
  | .evaluating .. => []
  | .applying _ function arguments _ => function :: arguments
  | .giving value => [value]

end Moment

namespace Eval

variable (settings : Settings) (interrupt : Moment → World → Option Stop)

/-- Stop at a moment that is to be interrupted. -/
def pause (moment : Moment) : Eval Unit := fun world =>
  match interrupt moment world with
  | none => .ok () world
  | some stop => .error stop world

mutual

/-- The value of a node, unless its evaluation is interrupted. -/
def evaluateUntil : (fuel : Nat) → Context → Node → Eval Value
  | 0, _, _ => throw .exhausted
  | fuel + 1, context, node => do
    pause interrupt (.evaluating context node)
    let value ← evaluateStep settings (evaluateUntil fuel) fuel (applyUntil fuel) context node
    pause interrupt (.giving value)
    return value

/-- The result of applying a value to arguments, unless the application is interrupted. -/
def applyUntil : (fuel : Nat) → Depth → Value → List Value → Location → Eval Value
  | 0, _, _, _, _ => throw .exhausted
  | fuel + 1, depth, function, arguments, location => do
    pause interrupt (.applying depth function arguments location)
    let value ← applyStep settings (evaluateUntil fuel) (applyUntil fuel) depth function arguments
      location
    pause interrupt (.giving value)
    return value

end

theorem pause_never (moment : Moment) : pause (fun _ _ => none) moment = pure () := rfl

/-- An evaluation that is never interrupted. -/
theorem until_never (fuel : Nat) :
    evaluateUntil settings (fun _ _ => none) fuel = evaluate settings fuel ∧
      applyUntil settings (fun _ _ => none) fuel = apply settings fuel := by
  induction fuel with
  | zero =>
      constructor
      · funext context node
        rw [evaluateUntil, evaluate]
      · funext depth function arguments location
        rw [applyUntil, apply]
  | succ fuel ih =>
      constructor
      · funext context node
        simp only [evaluateUntil, evaluate, pause_never, ih.1, ih.2, pure_bind, bind_pure]
      · funext depth function arguments location
        simp only [applyUntil, apply, pause_never, ih.1, ih.2, pure_bind, bind_pure]

end Eval

/-! ## Runs of programs -/

namespace Interpreter

/-- The world in which an interpreter starts a program. -/
def start (interpreter : Interpreter) : World :=
  { interpreter.world with steps := 0, output := "", calls := [] }

/-- The execution of a program at the top level, on a stack with the room that is wanted. -/
def execution (interpreter : Interpreter) (program : Program) (fuel : Nat) : Eval Value :=
  Eval.runBlock interpreter.settings (Eval.evaluate interpreter.settings fuel)
    ⟨interpreter.globals, .top⟩ program

/-- The evaluation of a program, for which room on the stack is asked first. -/
def evaluation (interpreter : Interpreter) (program : Program) (fuel : Nat) : Eval Value := do
  Eval.ofNumbers interpreter.settings.reserve
  interpreter.execution program fuel

/-- How a program ends that is executed. -/
def executed (interpreter : Interpreter) (program : Program) (fuel : Nat) : Ending Value :=
  interpreter.execution program fuel interpreter.start

/-- How a program ends. -/
def ending (interpreter : Interpreter) (program : Program) (fuel : Nat) : Ending Value :=
  interpreter.evaluation program fuel interpreter.start

theorem run_eq (interpreter : Interpreter) (program : Program) (fuel : Nat) :
    interpreter.run program fuel = ((interpreter.ending program fuel).result,
      { interpreter with world := (interpreter.ending program fuel).world }) := by
  change (match interpreter.ending program fuel with
    | .ok value world => (Except.ok value, { interpreter with world := world })
    | .error stop world => (Except.error stop, { interpreter with world := world })) = _
  cases interpreter.ending program fuel <;> rfl

/-- A program is executed if the stack can have the room that is wanted. -/
theorem ending_of_reserve {interpreter : Interpreter}
    (reserved : interpreter.settings.reserve = .ok ()) (program : Program) (fuel : Nat) :
    interpreter.ending program fuel = interpreter.executed program fuel := by
  rw [ending, evaluation, reserved]
  rfl

/-- A program is not executed if the room that is wanted is refused. -/
theorem ending_of_refused {interpreter : Interpreter} {refused : Overflow}
    (reserved : interpreter.settings.reserve = .error refused) (program : Program) (fuel : Nat) :
    interpreter.ending program fuel = .error (.overflow refused) interpreter.start := by
  rw [ending, evaluation, reserved]
  rfl

/-- What comes of a program if its evaluation is interrupted. -/
def endingUntil (interpreter : Interpreter) (interrupt : Moment → World → Option Stop)
    (program : Program) (fuel : Nat) : Ending Value :=
  let evaluation := do
    Eval.ofNumbers interpreter.settings.reserve
    Eval.runBlock interpreter.settings (Eval.evaluateUntil interpreter.settings interrupt fuel)
      ⟨interpreter.globals, .top⟩ program
  evaluation interpreter.start

/-- A run goes through a moment in a world: if it is stopped at the first of some chosen moments,
for a reason that depends on the moment, then it is stopped at this one. -/
def Meets (interpreter : Interpreter) (program : Program) (fuel : Nat) (moment : Moment)
    (world : World) : Prop :=
  ∃ chosen : Moment → World → Bool, ∀ reason : Moment → Stop,
    interpreter.endingUntil
      (fun moment world => if chosen moment world then some (reason moment) else none) program
        fuel =
      .error (reason moment) world

theorem endingUntil_never (interpreter : Interpreter) (program : Program) (fuel : Nat) :
    interpreter.endingUntil (fun _ _ => none) program fuel = interpreter.ending program fuel := by
  rw [endingUntil, (Eval.until_never interpreter.settings fuel).1]
  rfl

end Interpreter

end Offside
