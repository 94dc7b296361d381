import Offside.Toml

/-!
# Strings and keys of configuration texts

A string stands between double quotes, with escape sequences, or between single quotes, as it is.
Three quotes enclose a string of several lines. A key is a row of names with dots between them.
-/

namespace Offside.Toml

/-- The character that an escape sequence of one letter stands for. -/
def escaped? : Char → Option Char
  | 'b' => some '\x08'
  | 't' => some '\t'
  | 'n' => some '\n'
  | 'f' => some '\x0c'
  | 'r' => some '\r'
  | '"' => some '"'
  | '\\' => some '\\'
  | _ => none

/-- The value of a digit in base 16. -/
def hexDigit? (c : Char) : Option Nat :=
  if '0' ≤ c ∧ c ≤ '9' then some (c.toNat - '0'.toNat)
  else if 'a' ≤ c ∧ c ≤ 'f' then some (c.toNat - 'a'.toNat + 10)
  else if 'A' ≤ c ∧ c ≤ 'F' then some (c.toNat - 'A'.toNat + 10)
  else none

/-- The number that digits in base 16 stand for. -/
def hexValue? (digits : List Char) : Option Nat :=
  digits.foldlM (fun value c => return 16 * value + (← hexDigit? c)) 0

/-- The character with the code that the first `width` characters spell in base 16. -/
def characterOfCode (width : Nat) (rest : List Char) : Except Failure (Char × List Char) :=
  let digits := rest.take width
  match hexValue? digits with
  | none => .error (.invalid .characterCode rest)
  | some code =>
    if digits.length ≠ width then .error (.invalid .characterCode rest)
    else if code.isValidChar then .ok (Char.ofNat code, rest.drop width)
    else .error (.invalid .noCharacter (rest.drop width))

/-- The escape sequence after a backslash: the characters it stands for, and what follows. -/
def escapeSequence (rest : List Char) : Except Failure (List Char × List Char) :=
  match rest with
  | 'u' :: after => (characterOfCode 4 after).map fun (c, rest) => ([c], rest)
  | 'U' :: after => (characterOfCode 8 after).map fun (c, rest) => ([c], rest)
  | c :: after =>
    match escaped? c with
    | some c => .ok ([c], after)
    | none => .error (.invalid .backslash after)
  | [] => .error (.invalid .backslash [])

/-- The escape sequence after a backslash in a string of several lines: a backslash at the end of a
line also leaves out the new line and the white space after it. -/
def longEscapeSequence (rest : List Char) : Except Failure (List Char × List Char) :=
  match rest with
  | '\n' :: after => .ok ([], after.dropWhile isBlankOrNewline)
  | c :: after =>
    if isBlank c then
      match after.dropWhile isBlank with
      | [] => .ok ([], [])
      | '\n' :: later => .ok ([], later.dropWhile isBlankOrNewline)
      | later => .error (.invalid .backslash later)
    else escapeSequence rest
  | [] => escapeSequence rest

/-- Read a string on one line up to its closing quote, after which `fuel` is no shorter than the
text. -/
def shortString : Nat → List Char → List Char → Except Failure (List Char × List Char)
  | 0, _, rest => .error (.invalid .unterminated rest)
  | fuel + 1, done, rest =>
    match rest with
    | [] => .error (.invalid .unterminated [])
    | '"' :: after => .ok (done.reverse, after)
    | '\\' :: after =>
      match escapeSequence after with
      | .error failure => .error failure
      | .ok (chars, later) => shortString fuel (chars.reverse ++ done) later
    | c :: after =>
      if isControl c then .error (.invalid (.illegal c) rest)
      else shortString fuel (c :: done) after

/-- Read a string of several lines up to its closing quotes. -/
def longString : Nat → List Char → List Char → Except Failure (List Char × List Char)
  | 0, _, rest => .error (.invalid .unterminated rest)
  | fuel + 1, done, rest =>
    match rest with
    | [] => .error (.invalid .unterminated [])
    | '"' :: '"' :: '"' :: after => .ok (done.reverse, after)
    | '\\' :: after =>
      match longEscapeSequence after with
      | .error failure => .error failure
      | .ok (chars, later) => longString fuel (chars.reverse ++ done) later
    | c :: after =>
      if isControl c && c != '\n' then .error (.invalid (.illegal c) rest)
      else longString fuel (c :: done) after

/-- Split a text before the first place where it goes on with `delimiter`. -/
def splitAt? (delimiter : List Char) : List Char → Option (List Char × List Char)
  | [] => none
  | c :: rest =>
    if delimiter.isPrefixOf (c :: rest) then some ([], c :: rest)
    else (splitAt? delimiter rest).map fun (before, after) => (c :: before, after)

/-- Read up to a delimiter, without escape sequences. -/
def literalUntil (delimiter : String) (isRefused : Char → Bool) (rest : List Char) :
    Except Failure (List Char × List Char) :=
  match splitAt? delimiter.toList rest with
  | none => .error (.invalid (.expected delimiter) [])
  | some (before, after) =>
    match before.dropWhile fun c => !isRefused c with
    | [] => .ok (before, after.drop delimiter.length)
    | c :: _ =>
      .error (.invalid (.control c) (rest.drop (before.takeWhile fun c => !isRefused c).length))

namespace Reader

/-- A string between double quotes on one line, from its opening quote on. -/
def basicString : Reader String := do
  drop 1
  let rest ← get
  let (chars, later) ← shortString (rest.length + 1) [] rest
  set later
  return String.ofList chars

/-- A string between single quotes on one line, from its opening quote on. -/
def literalString : Reader String := do
  drop 1
  let (chars, later) ← literalUntil "'" isControl (← get)
  set later
  return String.ofList chars

/-- Up to two more quotes after a string of several lines, which belong to it. -/
def moreQuotes (quote : String) : Reader String := do
  if ← accept quote then
    if ← accept quote then return quote ++ quote else return quote
  else return ""

/-- A string of several lines between double quotes, from its opening quotes on. -/
def longBasicString : Reader String := do
  drop 3
  let _ ← accept "\n"
  let rest ← get
  let (chars, later) ← longString (rest.length + 1) [] rest
  set later
  return String.ofList chars ++ (← moreQuotes "\"")

/-- A string of several lines between single quotes, from its opening quotes on. -/
def longLiteralString : Reader String := do
  drop 3
  let _ ← accept "\n"
  let (chars, later) ← literalUntil "'''" (fun c => isControl c && c != '\n') (← get)
  set later
  return String.ofList chars ++ (← moreQuotes "'")

/-- The characters of a name without quotes. -/
def isBare (c : Char) : Bool :=
  ('a' ≤ c ∧ c ≤ 'z') || ('A' ≤ c ∧ c ≤ 'Z') || ('0' ≤ c ∧ c ≤ '9') || c = '-' || c = '_'

/-- One name of a key. -/
def keyPart : Reader String := do
  match ← peek with
  | some '\'' => literalString
  | some '"' => basicString
  | some c =>
    if isBare c then
      let rest ← get
      skip isBare
      return String.ofList (rest.takeWhile isBare)
    else fail .keyStart
  | none => fail .keyStart

/-- The names of a key after the first one. -/
def keyTail : Nat → Reader Key
  | 0 => return []
  | fuel + 1 => do
    skip isBlank
    if ← accept "." then
      skip isBlank
      let name ← keyPart
      return name :: (← keyTail fuel)
    else return []

/-- A key, with the white space after it. -/
def key : Reader Key := do
  let name ← keyPart
  let rest ← get
  return name :: (← keyTail (rest.length + 1))

end Reader

end Offside.Toml
