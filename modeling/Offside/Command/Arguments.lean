import Offside.Text.Integer

/-!
# Words of a command line

A word of a command line is an option or an operand. A long option may be cut short as long as it
stays unambiguous, may have its value after an equals sign, and short options may share one hyphen.
After a word `--` every word is an operand.
-/

namespace Offside.Arguments

/-- What an option asks for. -/
inductive Flag where
  | help
  | version
  | verbose
  | config
  | rebind
  | maxSteps
  | maxDepth
  | showValue
  | raw
  deriving DecidableEq

/-- Whether an option has a value. -/
def Flag.takesValue : Flag → Bool
  | config | maxSteps | maxDepth => true
  | _ => false

/-- The spellings of the options that can be used in a place. -/
abbrev Spellings := List (String × Flag)

/-- A text within the word of an option. -/
structure Attached where
  /-- The text. -/
  text : String
  /-- Whether an equals sign stands before it. -/
  isMarked : Bool
  deriving DecidableEq

/-- A word of a command line. -/
inductive Word where
  | operand (text : String)
  /-- The word after which every word is an operand. -/
  | separator
  | flag (flag : Flag) (spelling : String) (attached : Option Attached)
  /-- An option that is not known. -/
  | unknown
  deriving DecidableEq

/-- The text before the first equals sign, and the text after it if there is one. -/
def splitAtEquals (text : String) : String × Option String :=
  let chars := text.toList
  let before := chars.takeWhile (· ≠ '=')
  (String.ofList before,
    match chars.drop before.length with
    | [] => none
    | _ :: after => some (String.ofList after))

/-- Whether a text begins with another. -/
def beginsWith (start text : String) : Bool := start.toList.isPrefixOf text.toList

/-- The options that a word can stand for, cut short or with something attached. -/
def readings (spellings : Spellings) (text : String) : List Word :=
  if beginsWith "--" text then
    let (start, value) := splitAtEquals text
    (spellings.filter fun (spelling, _) => beginsWith start spelling).map fun (spelling, flag) =>
      .flag flag spelling (value.map (⟨·, true⟩))
  else
    spellings.filterMap fun (spelling, flag) =>
      if spelling.toList = text.toList.take 2 then
        some (.flag flag spelling (some ⟨String.ofList (text.toList.drop 2), false⟩))
      else if beginsWith text spelling then some (.flag flag spelling none)
      else none

/-- Whether characters are decimal digits. -/
def areDigits (chars : List Char) : Bool := chars.all fun c => (Text.digit? c).isSome

/-- Whether a word is a negative number, and so no option; a line feed may end it. -/
def isNegative (text : String) : Bool :=
  let chars := text.toList
  match if chars.getLast? = some '\n' then chars.dropLast else chars with
  | '-' :: number =>
    let whole := number.takeWhile (· ≠ '.')
    match number.drop whole.length with
    | [] => !whole.isEmpty && areDigits whole
    | _ :: fraction => areDigits whole && !fraction.isEmpty && areDigits fraction
  | _ => false

/-- The word of a text; `none` if it is the beginning of several options. -/
def readWord? (spellings : Spellings) (text : String) : Option Word :=
  match text.toList with
  | ['-'] => some (.operand text)
  | '-' :: _ =>
    match spellings.lookup text, splitAtEquals text with
    | some flag, _ => some (.flag flag text none)
    | none, (start, value) =>
      match value, spellings.lookup start with
      | some value, some flag => some (.flag flag start (some ⟨value, true⟩))
      | _, _ =>
        match readings spellings text with
        | [word] => some word
        | [] =>
          if isNegative text || text.toList.contains ' ' then some (.operand text)
          else some .unknown
        | _ => none
  | _ => some (.operand text)

/-- The words of texts. -/
def readWords? (spellings : Spellings) : List String → Option (List Word)
  | [] => some []
  | "--" :: rest => some (.separator :: rest.map .operand)
  | text :: rest => do return (← readWord? spellings text) :: (← readWords? spellings rest)

/-- Why a command line is not carried out. -/
inductive Halt where
  /-- It is wrong. -/
  | refused
  /-- It asks for help. -/
  | help
  /-- It asks for the version. -/
  | version
  deriving DecidableEq

/-- What the words of a command line say. -/
structure Given where
  /-- The operand. -/
  operand : Option String
  /-- The name of the file with settings. -/
  config : Option String
  /-- Whether `=` is to update bindings. -/
  rebind : Bool
  /-- The limit of steps. -/
  maxSteps : Option Int
  /-- The limit of nested calls. -/
  maxDepth : Option Int
  /-- Whether to show the value of a program. -/
  showValue : Bool
  /-- Whether to show tokens before layout. -/
  raw : Bool
  /-- Whether to report calls. -/
  verbose : Bool
  /-- Whether there are words that say nothing. -/
  hasSurplus : Bool
  deriving DecidableEq

namespace Given

/-- Nothing is said. -/
def nothing : Given := ⟨none, none, false, none, none, false, false, false, false⟩

/-- Take note of words that say nothing. -/
def surplus (given : Given) : Given := { given with hasSurplus := true }

/-- Take note of an option without a value. -/
def set (given : Given) : Flag → Except Halt Given
  | .help => .error .help
  | .version => .error .version
  | .verbose => .ok { given with verbose := true }
  | .rebind => .ok { given with rebind := true }
  | .showValue => .ok { given with showValue := true }
  | .raw => .ok { given with raw := true }
  | .config | .maxSteps | .maxDepth => .error .refused

/-- Take note of an option with a value. -/
def setValue (given : Given) (value : String) : Flag → Except Halt Given
  | .config => .ok { given with config := some value }
  | .maxSteps =>
    match Text.integer? value with
    | some limit => .ok { given with maxSteps := some limit }
    | none => .error .refused
  | .maxDepth =>
    match Text.integer? value with
    | some limit => .ok { given with maxDepth := some limit }
    | none => .error .refused
  | _ => .error .refused

end Given

/-- The options that share a hyphen with the one before, and whether something unknown follows them.
-/
def sharing (spellings : Spellings) : List Char → Except Halt (List Flag × Bool)
  | [] => .ok ([], false)
  | '-' :: _ => .error .refused
  | '=' :: _ => .error .refused
  | letter :: rest =>
    match spellings.lookup (String.ofList ['-', letter]) with
    | none => .ok ([], true)
    | some flag => (sharing spellings rest).map fun (flags, more) => (flag :: flags, more)

/-- Take note of an option with something attached to it. -/
def Given.setAttached (spellings : Spellings) (given : Given) (flag : Flag) (spelling : String)
    (attached : Attached) : Except Halt Given :=
  if flag.takesValue then given.setValue attached.text flag
  else if attached.isMarked || attached.text.isEmpty || beginsWith "--" spelling then
    .error .refused
  else do
    let (flags, more) ← sharing spellings attached.text.toList
    let given ← (flag :: flags).foldlM Given.set given
    return if more then given.surplus else given

/-- Take note of one word after the other. One operand is taken if `wantsOperand`, and a separator
beside it goes with it. -/
def Given.read (spellings : Spellings) (wantsOperand : Bool) (given : Given) :
    List Word → Except Halt Given
  | [] => .ok given
  | .unknown :: rest => given.surplus.read spellings wantsOperand rest
  | .operand text :: .separator :: rest =>
    if wantsOperand && given.operand.isNone then
      { given with operand := some text }.read spellings wantsOperand rest
    else given.surplus.read spellings wantsOperand rest
  | .operand text :: rest =>
    if wantsOperand && given.operand.isNone then
      { given with operand := some text }.read spellings wantsOperand rest
    else given.surplus.read spellings wantsOperand rest
  | .separator :: .operand text :: rest =>
    if wantsOperand && given.operand.isNone then
      { given with operand := some text }.read spellings wantsOperand rest
    else given.surplus.read spellings wantsOperand rest
  | .separator :: rest => given.surplus.read spellings wantsOperand rest
  | .flag flag spelling (some attached) :: rest => do
    (← given.setAttached spellings flag spelling attached).read spellings wantsOperand rest
  | .flag flag _ none :: rest =>
    if flag.takesValue then
      match rest with
      | .operand value :: rest => do
        (← given.setValue value flag).read spellings wantsOperand rest
      | _ => .error .refused
    else do (← given.set flag).read spellings wantsOperand rest

end Offside.Arguments
