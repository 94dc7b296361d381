import Offside.Command.Request
import Offside.Session.Dialogue

/-!
# Carrying out commands

A command reads files, writes to two channels, one for results and one for reports, and ends with a
code: zero if all went well, one if there is no program to run, two if the program fails.
-/

namespace Offside

/-- What a command leads to. -/
structure Outcome where
  /-- The code at the end. -/
  exit : Nat
  /-- The results. -/
  output : String
  /-- The reports. -/
  errors : String
  deriving DecidableEq

namespace Outcome

/-- Success with a result. -/
def success (output : String) : Outcome := ⟨0, output, ""⟩

/-- No program to run, with a report. -/
def rejected (report : String) : Outcome := ⟨1, "", report ++ "\n"⟩

end Outcome

namespace Command

/-- The version of the language. -/
def version : String := "0.1.0"

/-- The report of a call. -/
def callText : Call → String
  | .builtin name => "zeal.runtime DEBUG: call builtin " ++ name ++ "\n"
  | .closure name arguments depth =>
    "zeal.runtime DEBUG: call " ++ name ++ " with " ++ toString arguments ++
      " argument(s), depth " ++ toString depth ++ "\n"

/-- The reports of calls, if they are asked for. -/
def callsText (verbose : Bool) (calls : List Call) : String :=
  if verbose then String.join (calls.map callText) else ""

/-- Do something with the source text at a path. -/
def withSource (files : Files) (path : Path) (next : String → Except Break Outcome) :
    Except Break Outcome :=
  if !files.holds path then .ok (.rejected ("Error: File not found: " ++ path.text))
  else
    match files.source path with
    | .error reason =>
      .ok (.rejected ("Error: Cannot read " ++ path.text ++ ": " ++ reason.message path))
    | .ok source => next source

/-- The settings that a choice stands for. -/
def settings (files : Files) (choice : SettingsChoice) : Except Settings.Trouble Settings := do
  let settings ← match choice.file with
    | some path => Settings.ofFile files path
    | none => Settings.usual files
  return settings.choose choice.choices

/-- Do something with the settings that a choice stands for. -/
def withSettings (files : Files) (choice : SettingsChoice)
    (next : Settings → Except Break Outcome) : Except Break Outcome :=
  let refuse (report : String) : Outcome := .rejected ("Configuration error: " ++ report)
  match settings files choice with
  | .ok settings => next settings
  | .error (.problem problem path) => .ok (refuse (problem.message path))
  | .error (.text problem path) => .ok (refuse (problem.message path.text))
  | .error (.flaw flaw) => .error (.unreadable (.flaw flaw))
  | .error (.overflow refused) => .error (.overflow refused)

/-- The diagnostic of a rejected source text: the one of its tokens, if they have one. -/
def diagnosticOf (source file : String) : Rejection → Except Break Diagnostic
  | .overflow refused => .error (.overflow refused)
  | .layout wrong => .ok (.ofFault file wrong)
  | .defect wrong =>
    match (Diagnostic.ofDefect source file wrong).getLast? with
    | some diagnostic => .ok diagnostic
    | none => .ok (.ofFault file (wrong.fault source))

/-- Do something with the program of a source text. -/
def withProgram (source file : String) (next : Program → Except Break Outcome) :
    Except Break Outcome :=
  match Source.program source (some file) with
  | .ok program => next program
  | .error rejection => do
    let diagnostic ← diagnosticOf source file rejection
    return .rejected (diagnostic.render .blank source)

/-- Run a program. -/
def runProgram (source file : String) (settings : Settings) (fuel : Nat)
    (showValue verbose : Bool) (program : Program) : Except Break Outcome :=
  let (result, interpreter) := (Interpreter.new settings).run program fuel
  let output := interpreter.world.output
  let calls := callsText verbose interpreter.world.calls.reverse
  let failure (wrong : Fault) : Outcome :=
    ⟨2, output, calls ++ (Diagnostic.ofFault file wrong).render .blank source ++ "\n"⟩
  match result with
  | .error (.overflow .stack) => .ok (failure .fullStack)
  | .error (.overflow refused) => .error (.overflow refused)
  | .error .exhausted => .error .exhausted
  | .error (.fault wrong) => .ok (failure wrong)
  | .ok value =>
    if showValue then
      match value.display with
      | .ok text => .ok ⟨0, output ++ text ++ "\n", calls⟩
      | .error refused => .error (.overflow refused)
    else .ok ⟨0, output, calls⟩

/-- The tokens of a file, one on a line. -/
def tokensOutcome (path : Path) (raw : Bool) (source : String) : Except Break Outcome :=
  let result := if raw then
      (Token.scan source (some path.text)).mapError Rejection.overflow
    else Source.tokens source (some path.text)
  match result with
  | .ok found => .ok (.success (String.join (found.map (·.listed ++ "\n"))))
  | .error rejection => do
    let diagnostic ← diagnosticOf source path.text rejection
    return .rejected (diagnostic.render .blank source)

/-- What the language is. -/
def infoText : String :=
  String.intercalate "\n"
    ["",
      "Zeal Language",
      "=============",
      "",
      "Version: " ++ version,
      "",
      "Features:",
      "  - Curried functions: fn x y -> x + y",
      "  - Four call notations: f a b, f a, b, a .f b, a |> f b",
      "  - Indentation blocks after ':', '->', 'then' and 'else'",
      "  - List, tuple and inclusive range literals: [1, 2], (3, `Fizz`), 1..15",
      "  - String templates with interpolation: `i = \x7bi\x7d`",
      "  - Destructuring loops: for (m, s) <- pairs: ...",
      "",
      "Assignment:",
      "  x := v declares; s += `text` and xs ++= [v] update the nearest binding.",
      "  Plain x = v makes a new binding in the current block, so a loop like",
      "  `while i <= 15: ... i = i + 1` never ends unless run with --rebind.",
      "",
      "Built-ins:",
      "  " ++ String.intercalate ", " Session.builtinNames,
      "",
      "Commands:",
      "  zeal run <file>         Run a program",
      "  zeal check <file>       Check syntax",
      "  zeal tokens <file>      Show tokens",
      "  zeal ast <file>         Show the syntax tree",
      "  zeal repl               Start interactive REPL",
      "", ""]

/-- How to use the command line. -/
def usage : String :=
  "usage: zeal [-h] [-V] [-v] \x7brun,r,check,tokens,ast,repl,i,info\x7d ...\n"

/-- The outcome of a dialogue. -/
def dialogueOutcome (dialogue : Dialogue) (verbose : Bool) : Except Break Outcome :=
  match dialogue.state with
  | .broken reason => .error reason
  | _ => .ok ⟨0, dialogue.written, callsText verbose dialogue.calls⟩

/-- Carry out a command; a dialogue is held with the events given. -/
def outcome (files : Files) (fuel : Nat) (events : List Dialogue.Event) (verbose : Bool) :
    Command → Except Break Outcome
  | .run input choice showValue =>
    withSource files input fun source =>
      withSettings files choice fun settings =>
        withProgram source input.text
          (runProgram source input.text settings fuel showValue verbose)
  | .check input =>
    withSource files input fun source =>
      withProgram source input.text fun _ =>
        .ok (.success ("OK: " ++ input.text ++ " (no syntax errors)\n"))
  | .tokens input raw => withSource files input (tokensOutcome input raw)
  | .tree input =>
    withSource files input fun source =>
      withProgram source input.text fun program =>
        let lines := (Outline.ofProgram program).lines Outline.Style.plain 0
        .ok (.success (String.join (lines.map (· ++ "\n"))))
  | .dialogue choice =>
    withSettings files choice fun settings =>
      dialogueOutcome ((Dialogue.start (.new settings fuel)).run files events) verbose
  | .info => .ok (.success infoText)

end Command

/-- Carry out what a command line asks for. -/
def Request.outcome (files : Files) (fuel : Nat) (events : List Dialogue.Event) :
    Request → Except Break Outcome
  | .perform command verbose => command.outcome files fuel events verbose
  | .help => .ok (.success Command.usage)
  | .version => .ok (.success ("zeal " ++ Command.version ++ "\n"))
  | .refused => .ok ⟨2, "", Command.usage⟩

end Offside
