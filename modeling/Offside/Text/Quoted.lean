import Offside.Text.Printable

/-!
# Quoted texts

The form in which a report quotes a text: between single quotes, or between double quotes when the
text holds a single quote and no double one, with a backslash before the quote and the backslash and
a code for each character that is not printable.
-/

namespace Offside.Text

/-- A number in base 16, with zeros before it up to `width` digits. -/
def hexadecimal (width number : Nat) : String :=
  let digits := Nat.toDigits 16 number
  String.ofList (List.replicate (width - digits.length) '0' ++ digits)

/-- The spelling of one character between the quotes `quote`. -/
def quotedChar (quote c : Char) : String :=
  if c = quote || c = '\\' then String.ofList ['\\', c]
  else if c = '\n' then "\\n"
  else if c = '\r' then "\\r"
  else if c = '\t' then "\\t"
  else if isPrintable c then String.singleton c
  else if c.toNat < 0x100 then "\\x" ++ hexadecimal 2 c.toNat
  else if c.toNat < 0x10000 then "\\u" ++ hexadecimal 4 c.toNat
  else "\\U" ++ hexadecimal 8 c.toNat

/-- The quote that encloses a text: double if the text holds a single quote and no double one. -/
def quoteFor (text : String) : Char :=
  if text.toList.contains '\'' && !text.toList.contains '"' then '"' else '\''

/-- A text between quotes, in printable characters. -/
def quoted (text : String) : String :=
  let quote := quoteFor text
  String.singleton quote ++ String.join (text.toList.map (quotedChar quote)) ++
    String.singleton quote

end Offside.Text
