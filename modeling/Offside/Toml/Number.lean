import Offside.Toml.Text

/-!
# Numbers and dates of configuration texts

An integer is written in base 10, 16, 8 or 2, with underscores between digits if one likes. A number
with a fraction or an exponent, a date and a time are kept as they are written.
-/

namespace Offside.Toml

/-- A decimal digit. -/
def isDigit (c : Char) : Bool := '0' ≤ c ∧ c ≤ '9'

/-- The digits of a class at the start of a text, with single underscores between them, and what
follows. -/
def spanDigits (isMember : Char → Bool) : List Char → List Char × List Char
  | [] => ([], [])
  | '_' :: c :: rest =>
    if isMember c then
      let (digits, after) := spanDigits isMember rest
      ('_' :: c :: digits, after)
    else ([], '_' :: c :: rest)
  | c :: rest =>
    if isMember c then
      let (digits, after) := spanDigits isMember rest
      (c :: digits, after)
    else ([], c :: rest)

/-- Digits of a class that start with a digit. -/
def digits? (isMember : Char → Bool) : List Char → Option (List Char × List Char)
  | c :: rest => if isMember c then some (spanDigits isMember (c :: rest)) else none
  | [] => none

/-- The number that digits stand for; underscores do not count. -/
def digitsValue (base : Nat) (digits : List Char) : Nat :=
  (digits.filterMap hexDigit?).foldl (fun value digit => base * value + digit) 0

/-- The digits of a base. -/
def isDigitOf (base : Nat) (c : Char) : Bool :=
  match hexDigit? c with
  | some value => value < base
  | none => false

/-- The base that a letter after a zero stands for. -/
def baseOf? : Char → Option Nat
  | 'x' => some 16
  | 'o' => some 8
  | 'b' => some 2
  | _ => none

/-- An integer in base 16, 8 or 2. -/
def prefixedInteger? : List Char → Option (Nat × List Char)
  | '0' :: letter :: rest => do
    let base ← baseOf? letter
    let (digits, after) ← digits? (isDigitOf base) rest
    return (digitsValue base digits, after)
  | _ => none

/-- A sign, if there is one. -/
def spanSign : List Char → List Char × List Char
  | '+' :: rest => (['+'], rest)
  | '-' :: rest => (['-'], rest)
  | rest => ([], rest)

/-- The digits before a decimal point: a zero alone, or digits without a zero at the start. -/
def wholeDigits? : List Char → Option (List Char × List Char)
  | '0' :: rest => some (['0'], rest)
  | rest => digits? isDigit rest

/-- A fraction, if there is one. -/
def spanFraction (rest : List Char) : List Char × List Char :=
  match rest with
  | '.' :: after =>
    match digits? isDigit after with
    | some (digits, later) => ('.' :: digits, later)
    | none => ([], rest)
  | _ => ([], rest)

/-- An exponent, if there is one. -/
def spanExponent (rest : List Char) : List Char × List Char :=
  match rest with
  | letter :: after =>
    if letter = 'e' || letter = 'E' then
      let (sign, digitsOn) := spanSign after
      match digits? isDigit digitsOn with
      | some (digits, later) => (letter :: sign ++ digits, later)
      | none => ([], rest)
    else ([], rest)
  | [] => ([], rest)

/-- The integer of a sign and digits; there is a limit to their number. -/
def integerOf (sign digits : List Char) : Except Failure Value :=
  let count := (digits.filter isDigit).length
  if Overflow.digitLimit < count then .error (.overflow (.literal count))
  else
    let value : Int := digitsValue 10 digits
    .ok (.integer (if sign = ['-'] then -value else value))

/-- A number, if the text starts with one. -/
def number? (rest : List Char) : Option (Except Failure (Value × List Char)) :=
  match prefixedInteger? rest with
  | some (value, after) => some (.ok (.integer value, after))
  | none => do
    let (sign, unsigned) := spanSign rest
    let (whole, after) ← wholeDigits? unsigned
    let (fraction, after) := spanFraction after
    let (exponent, after) := spanExponent after
    if fraction.isEmpty && exponent.isEmpty then
      return (integerOf sign whole).map fun value => (value, after)
    else return .ok (.float (String.ofList (sign ++ whole ++ fraction ++ exponent)), after)

/-- A number of two digits from `low` to `high`. -/
def twoDigits? (low high : Nat) : List Char → Option (Nat × List Char)
  | tens :: units :: rest =>
    let value := digitsValue 10 [tens, units]
    if isDigit tens && isDigit units && low ≤ value && value ≤ high then some (value, rest)
    else none
  | _ => none

/-- What follows a character that a text starts with. -/
def after? (c : Char) : List Char → Option (List Char)
  | head :: rest => if head = c then some rest else none
  | [] => none

/-- What follows the time of day that a text starts with. -/
def afterTime? (rest : List Char) : Option (List Char) := do
  let (_, rest) ← twoDigits? 0 23 rest
  let (_, rest) ← twoDigits? 0 59 (← after? ':' rest)
  let (_, rest) ← twoDigits? 0 59 (← after? ':' rest)
  match rest with
  | '.' :: c :: later => if isDigit c then return later.dropWhile isDigit else return rest
  | _ => return rest

/-- What follows the difference from world time that a text may start with. -/
def afterOffset (rest : List Char) : List Char :=
  match rest with
  | 'Z' :: later => later
  | 'z' :: later => later
  | sign :: later =>
    if sign = '+' || sign = '-' then
      (do
        let (_, hoursDone) ← twoDigits? 0 23 later
        let (_, minutesDone) ← twoDigits? 0 59 (← after? ':' hoursDone)
        return minutesDone : Option (List Char)).getD rest
    else rest
  | [] => []

/-- What follows the time of day, with a separator before it, that a text may start with. -/
def afterClock (rest : List Char) : List Char :=
  match rest with
  | separator :: later =>
    if separator = 'T' || separator = 't' || separator = ' ' then
      match afterTime? later with
      | some later => afterOffset later
      | none => rest
    else rest
  | [] => []

/-- The number of days of a month. -/
def daysOf (year month : Nat) : Nat :=
  if month = 2 then
    if (year % 4 = 0 ∧ year % 100 ≠ 0) ∨ year % 400 = 0 then 29 else 28
  else if month = 4 ∨ month = 6 ∨ month = 9 ∨ month = 11 then 30
  else 31

/-- Year, month and day that a text starts with. -/
def calendarDay? (rest : List Char) : Option (Nat × Nat × Nat × List Char) := do
  let digits := rest.take 4
  if digits.length = 4 ∧ digits.all isDigit then
    let (month, rest) ← twoDigits? 1 12 (← after? '-' (rest.drop 4))
    let (day, rest) ← twoDigits? 1 31 (← after? '-' rest)
    return (digitsValue 10 digits, month, day, rest)
  else none

/-- The characters of `text` before `rest`. -/
def textBefore (text rest : List Char) : String :=
  String.ofList (text.take (text.length - rest.length))

/-- A date or a time, if the text starts with one. -/
def moment? (text : List Char) : Option (Except Failure (Value × List Char)) :=
  match calendarDay? text with
  | some (year, month, day, rest) =>
    if year = 0 ∨ daysOf year month < day then some (.error (.invalid .date text))
    else
      let rest := afterClock rest
      some (.ok (.moment (textBefore text rest), rest))
  | none =>
    (afterTime? text).map fun rest => .ok (.moment (textBefore text rest), rest)

/-- The words for numbers that have no digits. -/
def specialNumbers : List String := ["inf", "nan", "-inf", "+inf", "-nan", "+nan"]

/-- A number or a moment. -/
def scalar (text : List Char) : Except Failure (Value × List Char) :=
  match moment? text, number? text with
  | some result, _ => result
  | none, some result => result
  | none, none =>
    match specialNumbers.find? fun word => word.toList.isPrefixOf text with
    | some word => .ok (.float word, text.drop word.length)
    | none => .error (.invalid .value text)

end Offside.Toml
