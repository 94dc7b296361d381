/-!
# Lines of a text

Two notions of a line break occur. A source file is read with every carriage return, alone or
before a line feed, taken for a line feed. The lines that an error report quotes end at any of the
Unicode line boundaries.
-/

namespace Offside.Text

/-- The line boundaries of one character. -/
def isLineBreak (c : Char) : Bool :=
  let code := c.toNat
  (10 ≤ code && code ≤ 13) || (0x1C ≤ code && code ≤ 0x1E) || code == 0x85 || code == 0x2028 ||
    code == 0x2029

/-- The lines of a list of characters, without their boundaries and without an empty last line. -/
def splitLines : List Char → List (List Char)
  | [] => []
  | '\r' :: '\n' :: rest => [] :: splitLines rest
  | c :: rest =>
    if isLineBreak c then [] :: splitLines rest
    else
      match splitLines rest with
      | [] => [[c]]
      | line :: later => (c :: line) :: later

/-- The lines of a text, without their boundaries and without an empty last line. -/
def lines (text : String) : List String :=
  (splitLines text.toList).map String.ofList

/-- The line with number `number`, counted from one. -/
def line? (text : String) (number : Int) : Option String :=
  if 1 ≤ number then (lines text)[(number - 1).toNat]? else none

/-- Characters with every carriage return, alone or before a line feed, taken for a line feed. -/
def unifyNewlines : List Char → List Char
  | [] => []
  | '\r' :: '\n' :: rest => '\n' :: unifyNewlines rest
  | '\r' :: rest => '\n' :: unifyNewlines rest
  | c :: rest => c :: unifyNewlines rest

end Offside.Text
