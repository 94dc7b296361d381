import Offside.Text.EditDistance
import Offside.Text.LowerCase

/-!
# Similar names

The names to suggest in place of an unknown one: those within a small edit distance, case aside,
nearest first and in alphabetical order among equals.
-/

namespace Offside.Diagnostic

/-- A candidate's distance from a name, unless it is the name itself or too far from it. -/
def score? (name : String) (maxDistance : Int) (candidate : String) : Option (Nat × String) :=
  let gap := ((candidate.length : Int) - name.length).natAbs
  if candidate == name || maxDistance < gap then none
  else
    let distance := Text.editDistance (Text.lowerCase name) (Text.lowerCase candidate)
    if distance ≤ maxDistance then some (distance, candidate) else none

/-- The order of suggestions: by distance, then alphabetically. -/
def suggestionOrder (left right : Nat × String) : Bool :=
  decide (left.1 < right.1) || (left.1 == right.1 && decide (left.2 ≤ right.2))

/-- The first `count` elements; a negative count leaves out as many at the end. -/
def takeInt {α : Type} (count : Int) (list : List α) : List α :=
  if 0 ≤ count then list.take count.toNat else list.take (list.length - count.natAbs)

/-- The best suggestions for a name. -/
def similarNames (name : String) (candidates : List String) (maxDistance maxSuggestions : Int) :
    List String :=
  let scored := (candidates.filterMap (score? name maxDistance)).mergeSort suggestionOrder
  (takeInt maxSuggestions scored).map (·.2)

end Offside.Diagnostic
