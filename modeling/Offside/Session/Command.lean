import Offside.Session
import Offside.Text.Blank
import Offside.Text.LowerCase
import Offside.Tree.Outline

/-!
# Commands of a session

An input that starts with a colon is a command to the session itself.
-/

namespace Offside

/-- The commands of a session. -/
inductive Session.Command where
  | help
  | quit
  | variables
  | tree
  | tokens
  | load
  | reset
  deriving DecidableEq

namespace Session

/-- The commands by name. -/
def commands : List (String × Command) :=
  [("help", .help), ("h", .help), ("?", .help), ("quit", .quit), ("q", .quit), ("exit", .quit),
    ("vars", .variables), ("v", .variables), ("ast", .tree), ("tokens", .tokens), ("load", .load),
    ("reset", .reset)]

/-- The names of the built-in functions in alphabetical order. -/
def builtinNames : List String := Scopes.sorted (Builtin.all.map (·.name))

/-- The summary of commands and of the language. -/
def helpText : String :=
  String.intercalate "\n"
    ["Commands:",
      "  :help           Show this help",
      "  :quit, :q       Exit REPL",
      "  :vars           Show all bound names",
      "  :ast <code>     Show the AST of code",
      "  :tokens <code>  Show the tokens of code",
      "  :load <file>    Run a .zl file in this session",
      "  :reset          Forget all bindings",
      "",
      "Syntax:",
      "  x := 10                     Binding",
      "  add := fn a b -> a + b      Curried function",
      "  1..5 .map fn x -> x * x     Dot-call with a lambda",
      "",
      "Built-in Functions:",
      "  " ++ String.intercalate ", " builtinNames]

/-- A binding as it is listed. -/
def bindingText (name : String) (value : Value) : Except Overflow String :=
  return "  " ++ name ++ ": " ++ value.typeName ++ " = " ++ (← value.nestedText)

/-- The bindings of the top level, by name. -/
def variablesText (interpreter : Interpreter) : Except Overflow String := do
  let sorted := interpreter.bindings.mergeSort fun left right => decide (left.1 ≤ right.1)
  if sorted.isEmpty then return "No names bound"
  else return String.intercalate "\n" (← sorted.mapM fun (name, value) => bindingText name value)

/-- The outline of the syntax tree of a source text. -/
def treeText (source : String) : Except Break (Option String) :=
  match Source.program source (some inputName) with
  | .error rejection => rejectionText source rejection
  | .ok program =>
    .ok (some (String.intercalate "\n"
      ((Outline.ofProgram program).lines Outline.Style.enclosed 0)))

/-- The tokens of a source text, one on a line; a fault of layout quotes no line here. -/
def tokensText (source : String) : Except Break (Option String) :=
  match Source.tokens source (some inputName) with
  | .ok tokens => .ok (some (String.intercalate "\n" (tokens.map (·.listed))))
  | .error (.layout wrong) => .ok (some (faultText wrong))
  | .error rejection => rejectionText source rejection

/-- Run the source text of the file that `name` leads to. -/
def load (session : Session) (files : Files) (name : String) : Turn :=
  let path := Path.ofText name
  if !files.holds path then session.say ("Error: File not found: " ++ name)
  else
    match files.source path with
    | .error reason => ⟨.error (.unreadable reason), "", [], session⟩
    | .ok source =>
      let turn := session.evaluate source path.text
      let loaded := "Loaded " ++ name
      { turn with
        shown := turn.shown.map fun shown =>
          match shown with
          | none => some loaded
          | some text => some (text ++ "\n" ++ loaded) }

/-- Follow a command with the text after it. -/
def follow (session : Session) (files : Files) (argument : String) : Command → Turn
  | .help => session.say helpText
  | .quit => { session with isRunning := false }.say "Goodbye!"
  | .variables =>
    ⟨((variablesText session.interpreter).map some).mapError .overflow, "", [], session⟩
  | .tree =>
    if argument.isEmpty then session.say "Error: :ast requires code"
    else ⟨treeText argument, "", [], session⟩
  | .tokens =>
    if argument.isEmpty then session.say "Error: :tokens requires code"
    else ⟨tokensText argument, "", [], session⟩
  | .load =>
    if argument.isEmpty then session.say "Error: :load requires a filename"
    else session.load files argument
  | .reset => { session with interpreter := session.interpreter.reset }.say "Session reset"

/-- The first word of a text in lower case, and what follows it. -/
def splitCommand (text : String) : String × String :=
  let chars := text.toList.dropWhile Text.isSpace
  (Text.lowerCase (String.ofList (chars.takeWhile fun c => !Text.isSpace c)),
    Text.trim (String.ofList (chars.dropWhile fun c => !Text.isSpace c)))

/-- The text of a command without its colon, if an input is a command. -/
def command? (input : String) : Option String :=
  match Text.trimChars input.toList with
  | ':' :: rest => some (String.ofList rest)
  | _ => none

/-- The file that an input asks to load. -/
def fileOf? (input : String) : Option Path := do
  let (name, argument) := splitCommand (← command? input)
  if commands.lookup name = some .load then some (Path.ofText argument) else none

/-- Respond to an input. -/
def respond (session : Session) (files : Files) (input : String) : Turn :=
  if Text.isBlank input.toList then ⟨.ok none, "", [], session⟩
  else
    match command? input with
    | none => session.evaluate input inputName
    | some text =>
      let (name, argument) := splitCommand text
      match commands.lookup name with
      | some command => session.follow files argument command
      | none =>
        session.say ("Unknown command: :" ++ name ++ "\nType :help for available commands")

/-- Whether a text begins with another. -/
def beginsWith (start text : String) : Bool := start.toList.isPrefixOf text.toList

/-- The words that a text may be the beginning of: commands after a colon, else names and reserved
words, in alphabetical order. -/
def completions (session : Session) (text : String) : List String :=
  let words :=
    if beginsWith ":" text then commands.map fun (name, _) => ":" ++ name
    else
      session.interpreter.bindings.map (·.1) ++ Token.keywords.map (·.1) ++ builtinNames
  Scopes.sorted (words.filter (beginsWith text))

end Session

end Offside
