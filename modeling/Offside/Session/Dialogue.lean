import Offside.Session.Command

/-!
# Dialogues

A dialogue is a session at a terminal. It asks for lines until they make a complete input, responds
to the input, and goes on until it is told to end.
-/

namespace Offside

namespace Session

/-- The change in the number of open brackets at a token. -/
def bracketChange : Token.Kind → Int
  | .leftParen | .leftBracket | .leftBrace => 1
  | .rightParen | .rightBracket | .rightBrace => -1
  | _ => 0

/-- Whether more must follow the tokens: a bracket is open, or they end with a token that asks for
more. -/
def asksForMore (tokens : List Token) : Bool :=
  let kinds := tokens.map (·.kind)
  let depth := kinds.foldl (fun depth kind => depth + bracketChange kind) 0
  let last := (kinds.filter fun kind => kind != .newline && kind != .endOfFile).getLast?
  decide (0 < depth) ||
    match last with
    | none => false
    | some kind => Layout.opensBlock kind || Layout.expectsMore kind

/-- Whether an input needs more lines. An input of several lines is complete with an empty one. -/
def isIncomplete (text : String) : Except Overflow Bool :=
  if (command? text).isSome then .ok false
  else
    match Token.scan text none with
    | .error refused => .error refused
    | .ok tokens =>
      .ok (asksForMore tokens ||
        (text.toList.contains '\n' && text.toList.getLast? != some '\n'))

end Session

/-- How a dialogue stands. -/
inductive Dialogue.State where
  /-- It goes on. -/
  | going
  /-- It has ended. -/
  | ended
  /-- It has broken off. -/
  | broken (reason : Break)

/-- A session at a terminal. -/
structure Dialogue where
  /-- The session. -/
  session : Session
  /-- The lines of an input that needs more. -/
  pending : Option String
  /-- The inputs so far, in order. -/
  history : List String
  /-- The text written to the terminal. -/
  written : String
  /-- The calls that inputs made, in order. -/
  calls : List Call
  /-- How the dialogue stands. -/
  state : Dialogue.State

namespace Dialogue

/-- What comes from the terminal. -/
inductive Event where
  | line (text : String)
  /-- The user breaks the current input off. -/
  | interruption
  | endOfInput

/-- The name and version of the program. -/
def banner : String :=
  "Zeal 0.1.0 - Interactive Mode\nType :help for help, :quit to exit\n\n"

/-- Begin a dialogue. -/
def start (session : Session) : Dialogue := ⟨session, none, [], banner, [], .going⟩

/-- Write a text. -/
def write (dialogue : Dialogue) (text : String) : Dialogue :=
  { dialogue with written := dialogue.written ++ text }

/-- Ask for a line. -/
def ask (dialogue : Dialogue) : Dialogue :=
  dialogue.write (if dialogue.pending.isSome then "... " else ">>> ")

/-- A text without the line feeds at its end. -/
def dropLineFeeds (text : String) : String :=
  String.ofList (text.toList.reverse.dropWhile (· = '\n')).reverse

/-- Respond to a complete input. -/
def respond (dialogue : Dialogue) (files : Files) (input : String) : Dialogue :=
  let turn := dialogue.session.respond files input
  let after := { dialogue with
    session := turn.session
    pending := none
    history := dialogue.history ++ [input]
    written := dialogue.written ++ turn.output
    calls := dialogue.calls ++ turn.calls
    state := if turn.session.isRunning then .going else .ended }
  match turn.shown with
  | .error reason => { after with state := .broken reason }
  | .ok none => after
  | .ok (some text) => if text.isEmpty then after else after.write (text ++ "\n")

/-- Take in a line. -/
def add (dialogue : Dialogue) (files : Files) (line : String) : Dialogue :=
  let text := match dialogue.pending with
    | none => line
    | some lines => lines ++ "\n" ++ line
  match Session.isIncomplete text with
  | .error refused => { dialogue with state := .broken (.overflow refused) }
  | .ok true => { dialogue with pending := some text }
  | .ok false => dialogue.respond files (dropLineFeeds text)

/-- Take in what comes from the terminal. -/
def step (files : Files) (dialogue : Dialogue) : Event → Dialogue
  | .line text => dialogue.add files text
  | .interruption => { dialogue with pending := none }.write "\nUse :quit to exit\n"
  | .endOfInput => { dialogue with state := .ended }.write "\nGoodbye!\n"

/-- Ask and take in one event after the other, until the dialogue does not go on. -/
def run (files : Files) (dialogue : Dialogue) : List Event → Dialogue
  | [] => dialogue
  | event :: rest =>
    match dialogue.state with
    | .going => run files (dialogue.ask.step files event) rest
    | _ => dialogue

end Dialogue

end Offside
