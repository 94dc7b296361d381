import Offside.Overflow
import Offside.Text.Quoted
import Offside.Token.Printer

/-!
# Configuration texts

The values of a configuration text in TOML, and what can be wrong with such a text.
-/

namespace Offside.Toml

/-- The names that lead to a value. -/
abbrev Key := List String

/-- The values of a configuration text. -/
inductive Value where
  | boolean (value : Bool)
  | integer (value : Int)
  /-- A number with a fraction or an exponent, as it is written. -/
  | float (text : String)
  /-- A date, a time or both, as it is written. -/
  | moment (text : String)
  | string (value : String)
  | array (items : List Value)
  /-- Names and values, in the order of their first mention. -/
  | table (entries : List (String × Value))

/-- The entries of a table. -/
abbrev Table := List (String × Value)

/-- What is wrong with a configuration text. -/
inductive Cause where
  /-- A line starts with a character that starts no statement. -/
  | statement
  /-- Something follows a statement on its line. -/
  | trailing
  /-- A table is declared again. -/
  | twice (key : Key)
  /-- Something stands where a value stands already. -/
  | overwrite
  /-- The declaration of a table does not end. -/
  | tableEnd
  /-- The declaration of an element of an array does not end. -/
  | elementEnd
  /-- Something is added to a value that is complete. -/
  | frozen (key : Key)
  /-- A dotted key leads through a table that is declared elsewhere. -/
  | redefined (key : Key)
  /-- No equals sign follows a key. -/
  | equalsSign
  /-- A character starts no part of a key. -/
  | keyStart
  /-- An array does not end. -/
  | unclosedArray
  /-- A table between braces does not end. -/
  | unclosedTable
  /-- A table between braces has a name twice. -/
  | duplicate (name : String)
  /-- A backslash starts no escape sequence. -/
  | backslash
  /-- The code of an escaped character is no number. -/
  | characterCode
  /-- The code of an escaped character is that of no character. -/
  | noCharacter
  /-- A delimiter is missing. -/
  | expected (delimiter : String)
  /-- A control character stands in a comment or in a literal string. -/
  | control (c : Char)
  /-- A control character stands in a string. -/
  | illegal (c : Char)
  /-- A string does not end. -/
  | unterminated
  /-- There is no such date. -/
  | date
  /-- A character starts no value. -/
  | value
  deriving DecidableEq

namespace Cause

/-- A key as reports show it. -/
def keyText (key : Key) : String := inParens (key.map Text.quoted)

/-- What is said about a cause. -/
def message : Cause → String
  | statement => "Invalid statement"
  | trailing => "Expected newline or end of document after a statement"
  | twice key => "Cannot declare " ++ keyText key ++ " twice"
  | overwrite => "Cannot overwrite a value"
  | tableEnd => "Expected ']' at the end of a table declaration"
  | elementEnd => "Expected ']]' at the end of an array declaration"
  | frozen key => "Cannot mutate immutable namespace " ++ keyText key
  | redefined key => "Cannot redefine namespace " ++ keyText key
  | equalsSign => "Expected '=' after a key in a key/value pair"
  | keyStart => "Invalid initial character for a key part"
  | unclosedArray => "Unclosed array"
  | unclosedTable => "Unclosed inline table"
  | duplicate name => "Duplicate inline table key " ++ Text.quoted name
  | backslash => "Unescaped '\\' in a string"
  | characterCode => "Invalid hex value"
  | noCharacter => "Escaped character is not a Unicode scalar value"
  | expected delimiter => "Expected " ++ Text.quoted delimiter
  | control c => "Found invalid character " ++ Text.quoted (String.singleton c)
  | illegal c => "Illegal character " ++ Text.quoted (String.singleton c)
  | unterminated => "Unterminated string"
  | date => "Invalid date or datetime"
  | value => "Invalid value"

end Cause

/-- Why a configuration text has no values. -/
inductive Failure where
  /-- The text is wrong where `rest` begins. -/
  | invalid (cause : Cause) (rest : List Char)
  /-- A number has too many digits. -/
  | overflow (overflow : Overflow)

/-- Line and column of the place in `text` where `rest` begins. -/
def placeText (text rest : List Char) : String :=
  if rest.isEmpty then "end of document"
  else
    let before := text.take (text.length - rest.length)
    let column := (before.reverse.takeWhile (· ≠ '\n')).length + 1
    "line " ++ toString (before.count '\n' + 1) ++ ", column " ++ toString column

/-- What is said about a failure to read `text`. -/
def Failure.message (text : List Char) : Failure → String
  | .invalid cause rest => cause.message ++ " (at " ++ placeText text rest ++ ")"
  | .overflow refused => refused.message

/-- A step of reading: a result, with what is left of the text. -/
abbrev Reader := StateT (List Char) (Except Failure)

namespace Reader

/-- Fail where the reader is. -/
def fail {α : Type} (cause : Cause) : Reader α := fun rest => .error (.invalid cause rest)

/-- The next character. -/
def peek : Reader (Option Char) := fun rest => .ok (rest.head?, rest)

/-- Leave out `count` characters. -/
def drop (count : Nat) : Reader Unit := modify (List.drop count)

/-- Leave out the characters of a class. -/
def skip (isSkipped : Char → Bool) : Reader Unit := modify (List.dropWhile isSkipped)

/-- Whether the text goes on with `word`. -/
def sees (word : String) : Reader Bool := fun rest => .ok (word.toList.isPrefixOf rest, rest)

/-- Leave out `word` if the text goes on with it. -/
def accept (word : String) : Reader Bool := do
  if ← sees word then
    drop word.length
    return true
  else return false

end Reader

/-- The white space within a line. -/
def isBlank (c : Char) : Bool := c = ' ' || c = '\t'

/-- The white space between lines. -/
def isBlankOrNewline (c : Char) : Bool := isBlank c || c = '\n'

/-- The control characters, the tab apart. -/
def isControl (c : Char) : Bool := (c.toNat < 32 && c != '\t') || c.toNat = 127

/-- Leave out a comment up to the end of its line. -/
def skipComment : List Char → Except Failure (List Char)
  | [] => .ok []
  | c :: rest =>
    if c = '\n' then .ok (c :: rest)
    else if isControl c then .error (.invalid (.control c) (c :: rest))
    else skipComment rest

/-- Leave out white space, new lines and comments; `inComment` says whether the text starts within
one. -/
def skipSpace (inComment : Bool) : List Char → Except Failure (List Char)
  | [] => .ok []
  | c :: rest =>
    if c = '\n' then skipSpace false rest
    else if inComment then
      if isControl c then .error (.invalid (.control c) (c :: rest)) else skipSpace true rest
    else if c = '#' then skipSpace true rest
    else if isBlank c then skipSpace false rest
    else .ok (c :: rest)

/-- Leave out a comment if there is one. -/
def Reader.comment : Reader Unit := fun rest =>
  match rest with
  | '#' :: after => (skipComment after).map ((), ·)
  | _ => .ok ((), rest)

/-- Leave out white space, new lines and comments. -/
def Reader.space : Reader Unit := fun rest => (skipSpace false rest).map ((), ·)

end Offside.Toml
