import Offside.Command

/-!
# The command line

Reads the files that a request names, carries the request out, and holds dialogues at the terminal.
-/

namespace Offside.Terminal

/-- The problem that an error of the system stands for. -/
def problemOf : IO.Error → Files.Problem
  | .permissionDenied .. => .denied
  | .inappropriateType .. => .directory
  | .noFileOrDirectory .. => .missing
  | _ => .directory

/-- Read what is at a path. -/
def readPath (path : Path) : IO (Except Files.Problem ByteArray) := do
  try
    return .ok (← IO.FS.readBinFile path.text)
  catch problem => return .error (problemOf problem)

/-- The files at some paths. -/
def filesAt (paths : List Path) : IO Files := do
  let contents ← paths.mapM fun path => return (path, ← readPath path)
  let directory := (← IO.getEnv "PWD").getD "."
  return ⟨Path.ofText directory, fun path => (contents.lookup path).getD (.error .missing)⟩

/-- The paths that a choice of settings leads to. -/
def settingsPaths (choice : SettingsChoice) : List Path :=
  [choice.file.getD (Path.ofText Settings.fileName)]

/-- The paths that a request leads to. -/
def pathsOf : Request → List Path
  | .perform (.run input choice _) _ => input :: settingsPaths choice
  | .perform (.check input) _ => [input]
  | .perform (.tokens input _) _ => [input]
  | .perform (.tree input) _ => [input]
  | .perform (.dialogue choice) _ => settingsPaths choice
  | _ => []

/-- Write what a dialogue has written, and begin anew. -/
def flush (verbose : Bool) (dialogue : Dialogue) : IO Dialogue := do
  IO.eprint (Command.callsText verbose dialogue.calls)
  IO.print dialogue.written
  (← IO.getStdout).flush
  return { dialogue with written := "", calls := [] }

/-- The next event of the terminal. -/
def nextEvent : IO Dialogue.Event := do
  let line ← (← IO.getStdin).getLine
  if line.isEmpty then return .endOfInput
  else return .line (line.dropEndWhile (· = '\n')).toString

/-- What an event of the terminal needs of files. -/
def eventPaths : Dialogue.Event → List Path
  | .line text => (Session.fileOf? text).toList
  | _ => []

/-- Hold a dialogue to its end. -/
partial def converse (verbose : Bool) (dialogue : Dialogue) : IO Dialogue := do
  match dialogue.state with
  | .going =>
    let dialogue ← flush verbose dialogue.ask
    let event ← nextEvent
    let files ← filesAt (eventPaths event)
    converse verbose (← flush verbose (dialogue.step files event))
  | _ => return dialogue

/-- What is said about a break. -/
def breakText : Break → String
  | .overflow refused => refused.message
  | .unreadable (.problem problem) => problem.reason
  | .unreadable (.flaw flaw) => flaw.message
  | .exhausted => "out of fuel"

/-- Write an outcome, and give its code. -/
def finish : Except Break Outcome → IO UInt32
  | .ok outcome => do
    IO.print outcome.output
    IO.eprint outcome.errors
    return outcome.exit.toUInt32
  | .error reason => do
    IO.eprintln (breakText reason)
    return 1

end Offside.Terminal

open Offside Offside.Terminal in
/-- Carry out what the command line asks for. -/
def main (arguments : List String) : IO UInt32 := do
  let request := Request.ofTexts arguments
  let files ← filesAt (pathsOf request)
  match request with
  | .perform (.dialogue choice) verbose =>
    match Command.settings files choice with
    | .ok settings =>
      let dialogue ← converse verbose (Dialogue.start (.new settings Interpreter.ampleFuel))
      finish (Command.dialogueOutcome dialogue verbose)
    | .error _ => finish (request.outcome files Interpreter.ampleFuel [])
  | _ => finish (request.outcome files Interpreter.ampleFuel [])
