import Offside.Overflow
import Offside.Text.Blank

/-!
# Integers in texts

An integer is read from decimal digits of any script, with a sign before them, single underscores
between them and white space around them if one likes.
-/

namespace Offside.Text

/-- The codes of the zeros of all scripts with decimal digits; the other digits follow each zero. -/
def zeroCodes : List Nat :=
  [0x30, 0x660, 0x6F0, 0x7C0, 0x966, 0x9E6, 0xA66, 0xAE6, 0xB66, 0xBE6, 0xC66, 0xCE6, 0xD66, 0xDE6,
    0xE50, 0xED0, 0xF20, 0x1040, 0x1090, 0x17E0, 0x1810, 0x1946, 0x19D0, 0x1A80, 0x1A90, 0x1B50,
    0x1BB0, 0x1C40, 0x1C50, 0xA620, 0xA8D0, 0xA900, 0xA9D0, 0xA9F0, 0xAA50, 0xABF0, 0xFF10,
    0x104A0, 0x10D30, 0x11066, 0x110F0, 0x11136, 0x111D0, 0x112F0, 0x11450, 0x114D0, 0x11650,
    0x116C0, 0x11730, 0x118E0, 0x11950, 0x11C50, 0x11D50, 0x11DA0, 0x16A60, 0x16AC0, 0x16B50,
    0x1D7CE, 0x1D7D8, 0x1D7E2, 0x1D7EC, 0x1D7F6, 0x1E140, 0x1E2F0, 0x1E950, 0x1FBF0]

/-- The value of a decimal digit. -/
def digit? (c : Char) : Option Nat :=
  (zeroCodes.find? fun code => code ≤ c.toNat && c.toNat < code + 10).map (c.toNat - ·)

/-- The white space around an integer: that of texts without the separators of files, groups,
records and units. -/
def isIntegerSpace (c : Char) : Bool := isSpace c && !(28 ≤ c.toNat && c.toNat ≤ 31)

/-- The values of digits with single underscores between them. -/
def digits? : List Char → Option (List Nat)
  | [] => none
  | [c] => (digit? c).map ([·])
  | c :: '_' :: rest => do return (← digit? c) :: (← digits? rest)
  | c :: rest => do return (← digit? c) :: (← digits? rest)

/-- The number that decimal digits stand for; there is a limit to how many they are. -/
def natural? (chars : List Char) : Option Nat := do
  let digits ← digits? chars
  if digits.length ≤ Overflow.digitLimit then
    return digits.foldl (fun value digit => 10 * value + digit) 0
  else none

/-- The integer that a text stands for. -/
def integer? (text : String) : Option Int :=
  let chars := text.toList.dropWhile isIntegerSpace
  match (chars.reverse.dropWhile isIntegerSpace).reverse with
  | '+' :: digits => (natural? digits).map Int.ofNat
  | '-' :: digits => (natural? digits).map fun value => -Int.ofNat value
  | digits => (natural? digits).map Int.ofNat

end Offside.Text
