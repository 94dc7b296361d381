/-!
# Edit distance

The least number of insertions, deletions and substitutions of single characters that turn one text
into another, computed row by row: a row holds the distances from a prefix of one text to all
prefixes of the other.
-/

namespace Offside.Text

/-- The entries of a row after `last`, which belong to the prefixes that end with each of `ys`, from
the entries of the previous row. -/
def nextEntries (x : Char) (last : Nat) : List Char → (previous : List Nat) → List Nat
  | y :: ys, diagonal :: above :: previous =>
    let substitution := diagonal + if x = y then 0 else 1
    let entry := min (above + 1) (min (last + 1) substitution)
    entry :: nextEntries x entry ys (above :: previous)
  | _, _ => []

/-- The row that follows the previous one, which belongs to a prefix of length `length`. -/
def nextRow (ys : List Char) (previous : List Nat) (x : Char) (length : Nat) : List Nat :=
  (length + 1) :: nextEntries x (length + 1) ys previous

/-- The last row. -/
def lastRow (ys : List Char) (previous : List Nat) : List (Char × Nat) → List Nat
  | [] => previous
  | (x, length) :: xs => lastRow ys (nextRow ys previous x length) xs

/-- The edit distance of two lists of characters, the second of which is not longer. -/
def rowDistance (xs ys : List Char) : Nat :=
  if ys.isEmpty then xs.length
  else (lastRow ys (List.range (ys.length + 1)) xs.zipIdx).getLastD 0

/-- The edit distance of two lists of characters. -/
def charDistance (xs ys : List Char) : Nat :=
  if xs.length < ys.length then rowDistance ys xs else rowDistance xs ys

/-- The edit distance of two texts. -/
def editDistance (left right : String) : Nat :=
  charDistance left.toList right.toList

end Offside.Text
