import Offside.Files
import Offside.Settings
import Offside.Toml.Document

/-!
# Settings from files and choices

Settings come from a table of a configuration text. What is chosen beside the file wins over it.
-/

namespace Offside.Settings

/-- Why a configuration text gives no settings. -/
inductive Problem where
  /-- The text is no configuration text. -/
  | malformed (message : String)
  /-- The settings are not in a table. -/
  | noTable
  /-- There is no such setting. -/
  | unknown (name : String)
  /-- The setting is true or false, and nothing else. -/
  | notBoolean (name : String)
  /-- The setting is a positive integer, and nothing else. -/
  | notPositive (name : String)
  deriving DecidableEq

/-- What is said about a problem in the file `file`. -/
def Problem.message (file : String) (problem : Problem) : String :=
  file ++ ": " ++
    match problem with
    | malformed message => message
    | noTable => "[interpreter] must be a table"
    | unknown name => "unknown interpreter setting '" ++ name ++ "'"
    | notBoolean name => "'" ++ name ++ "' must be true or false"
    | notPositive name => "'" ++ name ++ "' must be a positive integer"

/-- A positive integer. -/
def positive? : Toml.Value → Option Int
  | .integer value => if 0 < value then some value else none
  | _ => none

/-- The settings with the one of a name changed. -/
def set (settings : Settings) (name : String) (value : Toml.Value) : Except Problem Settings :=
  if name = "rebind_on_assign" then
    match value with
    | .boolean value => .ok { settings with rebindOnAssign := value }
    | _ => .error (.notBoolean name)
  else if name = "max_steps" then
    match positive? value with
    | some limit => .ok { settings with maxSteps := some limit }
    | none => .error (.notPositive name)
  else if name = "max_call_depth" then
    match positive? value with
    | some limit => .ok { settings with maxCallDepth := limit }
    | none => .error (.notPositive name)
  else .error (.unknown name)

/-- The settings in the values of a configuration text. -/
def ofTable (table : Toml.Table) : Except Problem Settings :=
  match table.lookup "interpreter" with
  | none => .ok .default
  | some (.table entries) =>
    entries.foldlM (fun settings (name, value) => settings.set name value) .default
  | some _ => .error .noTable

/-- What keeps settings from being read. -/
inductive Trouble where
  /-- There is no text to read. -/
  | problem (problem : Files.Problem) (path : Path)
  /-- The bytes are no text. -/
  | flaw (flaw : Text.Utf8Flaw)
  /-- The text gives no settings. -/
  | text (problem : Problem) (path : Path)
  /-- A number in the text has too many digits. -/
  | overflow (overflow : Overflow)

/-- The settings in the bytes of the file at `path`. -/
def ofBytes (path : Path) (bytes : ByteArray) : Except Trouble Settings :=
  match Text.ofUtf8 bytes with
  | .error wrong => .error (.flaw wrong)
  | .ok chars =>
    let lines := Toml.joinLineEnds chars
    match Toml.parse lines with
    | .error (.overflow refused) => .error (.overflow refused)
    | .error failure => .error (.text (.malformed (failure.message lines)) path)
    | .ok table => (ofTable table).mapError (.text · path)

/-- The settings in the file at a path. -/
def ofFile (files : Files) (path : Path) : Except Trouble Settings :=
  match files.read path with
  | .error problem => .error (.problem problem path)
  | .ok bytes => ofBytes path bytes

/-- The name of the file that settings come from unless another one is chosen. -/
def fileName : String := "zeal.toml"

/-- The settings in the usual file, if there is one. -/
def usual (files : Files) : Except Trouble Settings :=
  match files.read (.ofText fileName) with
  | .error _ => .ok .default
  | .ok bytes => ofBytes (files.directory.within fileName) bytes

/-- What is chosen beside a file. -/
structure Choices where
  rebindOnAssign : Option Bool
  maxSteps : Option Int
  maxCallDepth : Option Int
  deriving DecidableEq

/-- The settings with what is chosen in place of what they say. -/
def choose (settings : Settings) (choices : Choices) : Settings :=
  ⟨choices.rebindOnAssign.getD settings.rebindOnAssign,
    match choices.maxSteps with
    | some limit => some limit
    | none => settings.maxSteps,
    choices.maxCallDepth.getD settings.maxCallDepth⟩

end Offside.Settings
