import Offside.Command.Arguments
import Offside.Settings.Source

/-!
# Requests

What a command line asks for: a command with what it works on, help, or the version.
-/

namespace Offside

/-- Where settings come from: a file, or the usual one, and what is chosen beside it. -/
structure SettingsChoice where
  /-- The file. -/
  file : Option Path
  /-- What is chosen. -/
  choices : Settings.Choices
  deriving DecidableEq

/-- The commands. -/
inductive Command where
  /-- Run the program in a file. -/
  | run (input : Path) (settings : SettingsChoice) (showValue : Bool)
  /-- Check the program in a file without running it. -/
  | check (input : Path)
  /-- Show the tokens of a file, before layout if `raw`. -/
  | tokens (input : Path) (raw : Bool)
  /-- Show the syntax tree of a file. -/
  | tree (input : Path)
  /-- Hold a dialogue. -/
  | dialogue (settings : SettingsChoice)
  /-- Say what the language is. -/
  | info
  deriving DecidableEq

/-- What a command line asks for. -/
inductive Request where
  | perform (command : Command) (verbose : Bool)
  | help
  | version
  /-- Nothing that can be done. -/
  | refused
  deriving DecidableEq

namespace Request

open Arguments

/-- The kinds of commands. -/
inductive CommandKind where
  | run
  | check
  | tokens
  | tree
  | dialogue
  | info
  deriving DecidableEq

/-- The commands by name. -/
def commands : List (String × CommandKind) :=
  [("run", .run), ("r", .run), ("check", .check), ("tokens", .tokens), ("ast", .tree),
    ("repl", .dialogue), ("i", .dialogue), ("info", .info)]

/-- The options for help. -/
def helpSpellings : Spellings := [("-h", .help), ("--help", .help)]

/-- The options before a command. -/
def generalSpellings : Spellings :=
  helpSpellings ++ [("-V", .version), ("--version", .version), ("-v", .verbose),
    ("--verbose", .verbose)]

/-- The options for settings. -/
def settingsSpellings : Spellings :=
  [("--config", .config), ("--rebind", .rebind), ("--max-steps", .maxSteps),
    ("--max-depth", .maxDepth)]

/-- The options after a command. -/
def CommandKind.spellings : CommandKind → Spellings
  | run => helpSpellings ++ settingsSpellings ++ [("--show-value", .showValue)]
  | tokens => helpSpellings ++ [("--raw", .raw)]
  | dialogue => helpSpellings ++ settingsSpellings
  | check | tree | info => helpSpellings

/-- Whether a command works on a file. -/
def CommandKind.wantsOperand : CommandKind → Bool
  | run | check | tokens | tree => true
  | dialogue | info => false

/-- The settings that are chosen. -/
def settingsOf (given : Given) : SettingsChoice :=
  ⟨given.config.map Path.ofText,
    ⟨if given.rebind then some true else none, given.maxSteps, given.maxDepth⟩⟩

/-- The command of a kind, with what is said after its name. -/
def commandOf? (given : Given) (kind : CommandKind) : Option Command :=
  match kind, given.operand.map Path.ofText with
  | .run, some input => some (.run input (settingsOf given) given.showValue)
  | .check, some input => some (.check input)
  | .tokens, some input => some (.tokens input given.raw)
  | .tree, some input => some (.tree input)
  | .dialogue, none => some (.dialogue (settingsOf given))
  | .info, none => some .info
  | _, _ => none

/-- Read what follows the name of a command. -/
def readCommand (kind : CommandKind) (texts : List String) : Except Halt (Given × Command) := do
  match readWords? kind.spellings texts with
  | none => .error .refused
  | some words =>
    let given ← Given.nothing.read kind.spellings kind.wantsOperand words
    match commandOf? given kind with
    | none => .error .refused
    | some command => return (given, command)

/-- The words before the name of a command. -/
def beforeName (words : List Word) : List Word :=
  words.takeWhile fun word =>
    match word with
    | .operand _ => false
    | _ => true

/-- Read a command line. -/
def read (texts : List String) : Except Halt Request :=
  match readWords? generalSpellings texts with
  | none => .error .refused
  | some words => do
    let before := beforeName words
    let general ← Given.nothing.read generalSpellings false before
    match texts.drop before.length with
    | [] => if general.hasSurplus then .error .refused else .error .help
    | name :: rest =>
      match commands.lookup name, before.contains .separator with
      | some kind, false => do
        let (given, command) ← readCommand kind rest
        if general.hasSurplus || given.hasSurplus then .error .refused
        else return .perform command general.verbose
      | _, _ => .error .refused

/-- What a command line asks for. -/
def ofTexts (texts : List String) : Request :=
  match read texts with
  | .ok request => request
  | .error .help => .help
  | .error .version => .version
  | .error .refused => .refused

end Request

end Offside
