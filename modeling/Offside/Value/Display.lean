import Offside.Decimal.Shortest
import Offside.Value

/-!
# Display of values

A value is shown as it would be written, except that a text on its own is shown as it is. An integer
of too many digits is refused.
-/

namespace Offside.Value

/-- The text of an integer, unless it has too many digits. -/
def intText (n : Int) : Except Overflow String :=
  if Number.tenTo Overflow.digitLimit ≤ n.natAbs then .error .display else .ok (toString n)

/-- The spelling of a character in a text between double quotes. -/
def escapedChar (c : Char) : List Char :=
  if c = '\\' then ['\\', '\\']
  else if c = '"' then ['\\', '"']
  else if c = '\n' then ['\\', 'n']
  else [c]

/-- A text between double quotes. -/
def quotedText (text : String) : String :=
  "\"" ++ String.ofList (text.toList.flatMap escapedChar) ++ "\""

/-- The text of a function with the names of the parameters that are still open. -/
def functionText (parameters : List Pattern) : String :=
  match (Pattern.namesOfAll parameters).map (·.1) with
  | [] => "<fn>"
  | names => "<fn " ++ String.intercalate " " names ++ ">"

mutual

/-- The text of a value within a list or a tuple. -/
def nestedText : Value → Except Overflow String
  | .bool value => .ok (if value then "true" else "false")
  | .int value => intText value
  | .float value => .ok (Decimal.floatText value)
  | .string value => .ok (quotedText value)
  | .unit => .ok "()"
  | .list items => do
    let texts ← nestedTexts items
    return "[" ++ String.intercalate ", " texts ++ "]"
  | .tuple items => do
    let texts ← nestedTexts items
    return "(" ++ String.intercalate ", " texts ++ ")"
  | .range low high => do
    let texts ← (integersFrom low (rangeLength low high)).mapM fun
      | .int value => intText value
      | _ => .ok ""
    return "[" ++ String.intercalate ", " texts ++ "]"
  | .closure parameters _ _ bound _ _ => .ok (functionText (parameters.drop bound.length))
  | .builtin function _ _ => .ok ("<builtin " ++ function.name ++ ">")

/-- The texts of the values within a list or a tuple. -/
def nestedTexts : List Value → Except Overflow (List String)
  | [] => .ok []
  | item :: rest => do
    let text ← nestedText item
    let texts ← nestedTexts rest
    return text :: texts

end

/-- The text of a value on its own. -/
def display : Value → Except Overflow String
  | .string value => .ok value
  | value => nestedText value

end Offside.Value
