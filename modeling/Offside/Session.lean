import Offside.Files
import Offside.Interpreter

/-!
# Sessions

A session runs one input after the other in one interpreter and says what there is to show: the
value of an expression, the new value of a name, or a fault.
-/

namespace Offside

/-- Why a session cannot say what there is to show. -/
inductive Break where
  /-- A number is out of bounds, or so is the room on the stack. -/
  | overflow (overflow : Overflow)
  /-- A file to run has no source text. -/
  | unreadable (reason : Files.Unreadable)
  /-- The fuel has run out. -/
  | exhausted

/-- An interpreter in use. -/
structure Session where
  /-- The interpreter. -/
  interpreter : Interpreter
  /-- The fuel for each input. -/
  fuel : Nat
  /-- Whether the session goes on. -/
  isRunning : Bool

/-- What an input leads to. -/
structure Turn where
  /-- The text to show, if there is one. -/
  shown : Except Break (Option String)
  /-- The text that the input wrote. -/
  output : String
  /-- The calls that it made, in order. -/
  calls : List Call
  /-- The session afterwards. -/
  session : Session

namespace Session

/-- A new session. -/
def new (settings : Settings) (fuel : Nat) : Session := ⟨.new settings, fuel, true⟩

/-- The name that inputs of a session have as source texts. -/
def inputName : String := "<repl>"

/-- A fault as it is shown. -/
def faultText (fault : Fault) : String := fault.kind.name ++ ": " ++ fault.text

/-- Show a text, with nothing else happening. -/
def say (session : Session) (text : String) : Turn := ⟨.ok (some text), "", [], session⟩

/-- The value that a name has at the top level; a name without one is shown as the unit. -/
def valueOf (interpreter : Interpreter) (name : String) : Value :=
  (interpreter.bindings.lookup name).getD .unit

/-- What to show of a program that ran to a value: the name bound last, or the value of a last
expression other than the unit. -/
def summary? (interpreter : Interpreter) (program : Program) (value : Value) :
    Except Overflow (Option String) :=
  match program.statements.getLast? with
  | none => return none
  | some (.binding (.name bound _) _ _ _) =>
    return some (bound ++ " = " ++ (← (valueOf interpreter bound).nestedText))
  | some last =>
    match last.isStatement, value with
    | true, _ => return none
    | false, .unit => return none
    | false, value => return some (← value.nestedText)

/-- What to show of a rejected source text. -/
def rejectionText (source : String) (rejection : Rejection) : Except Break (Option String) :=
  match rejection.fault source with
  | .ok wrong => .ok (some (faultText wrong))
  | .error refused => .error (.overflow refused)

/-- What to show of a program that ran. -/
def resultText (source : String) (program : Program) (interpreter : Interpreter) :
    Except Stop Value → Except Break (Option String)
  | .ok value => (summary? interpreter program value).mapError .overflow
  | .error (.fault wrong) => .ok (some (faultText (wrong.withSource source)))
  | .error (.overflow .stack) => .ok (some (faultText .fullStack))
  | .error (.overflow refused) => .error (.overflow refused)
  | .error .exhausted => .error .exhausted

/-- Run a source text. -/
def evaluate (session : Session) (source file : String) : Turn :=
  match Source.program source (some file) with
  | .error rejection => ⟨rejectionText source rejection, "", [], session⟩
  | .ok program =>
    let (result, interpreter) := session.interpreter.run program session.fuel
    ⟨resultText source program interpreter result, interpreter.world.output,
      interpreter.world.calls.reverse, { session with interpreter := interpreter }⟩

end Session

end Offside
