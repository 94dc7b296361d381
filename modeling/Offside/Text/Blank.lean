/-!
# White space

The characters that count as white space between words, and texts made of nothing else.
-/

namespace Offside.Text

/-- Unicode white space, with the separators of files, groups, records and units. -/
def isSpace (c : Char) : Bool :=
  let code := c.toNat
  (9 ≤ code && code ≤ 13) || (28 ≤ code && code ≤ 32) || code == 0x85 || code == 0xA0 ||
    code == 0x1680 || (0x2000 ≤ code && code ≤ 0x200A) || code == 0x2028 || code == 0x2029 ||
    code == 0x202F || code == 0x205F || code == 0x3000

/-- A text without a character other than white space. -/
def isBlank (chars : List Char) : Bool :=
  chars.all isSpace

/-- The characters without the white space at both ends. -/
def trimChars (chars : List Char) : List Char :=
  ((chars.dropWhile isSpace).reverse.dropWhile isSpace).reverse

/-- A text without the white space at both ends. -/
def trim (text : String) : String :=
  String.ofList (trimChars text.toList)

end Offside.Text
