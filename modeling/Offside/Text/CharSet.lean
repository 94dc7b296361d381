/-!
# Sets of characters

A set of characters is written as the lengths of the runs of code points that lie outside and inside
of it, in turn. The Unicode properties that the language reads (letters, numerals, printable
characters, cased letters) are such sets.
-/

namespace Offside.Text

/-- A set of characters. -/
structure CharSet where
  /-- How many code points in a row lie outside of the set and how many inside, in turn. -/
  runs : List Nat

namespace CharSet

/-- Whether the code point that lies `offset` after the start of the runs is in the set. -/
def holds (offset : Nat) : (runs : List Nat) → Bool
  | outside :: inside :: runs =>
    decide (outside ≤ offset) &&
      (decide (offset < outside + inside) || holds (offset - (outside + inside)) runs)
  | _ => false

/-- A character belongs to a set when one of the runs inside holds the character's code point. -/
def contains (set : CharSet) (c : Char) : Bool := holds c.toNat set.runs

end CharSet

end Offside.Text
