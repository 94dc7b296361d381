import Offside.Decimal.Shortest
import Offside.Text.Quoted
import Offside.Token

/-!
# Showing tokens

Error reports name a token by its lexeme; listings show it in full, with its payload and location.
-/

namespace Offside

/-- Texts in parentheses, with a comma after a single one. -/
def inParens : List String → String
  | [] => "()"
  | [item] => "(" ++ item ++ ",)"
  | items => "(" ++ String.intercalate ", " items ++ ")"

/-- The spelling of a truth value in listings. -/
def truthText (value : Bool) : String := if value then "True" else "False"

mutual

/-- A payload in a listing. -/
def Payload.listed : Payload → String
  | .absent => "None"
  | .text content => Text.quoted content
  | .integer value => toString value
  | .float value => Decimal.floatText value
  | .boolean value => truthText value
  | .segments segments => inParens (Segment.listedAll segments)

/-- A segment in a listing. -/
def Segment.listed : Segment → String
  | .text content => "TextSegment(text=" ++ Text.quoted content ++ ")"
  | .expression tokens source =>
    "ExprSegment(tokens=" ++ inParens (Token.listedAll tokens) ++ ", source=" ++
      Text.quoted source ++ ")"

/-- The segments of a string literal in a listing. -/
def Segment.listedAll : List Segment → List String
  | [] => []
  | segment :: rest => Segment.listed segment :: Segment.listedAll rest

/-- A token in a listing. -/
def Token.listed : Token → String
  | ⟨kind, .absent, location⟩ => "Token(" ++ kind.name ++ ", " ++ location.text ++ ")"
  | ⟨kind, payload, location⟩ =>
    "Token(" ++ kind.name ++ ", " ++ Payload.listed payload ++ ", " ++ location.text ++ ")"

/-- Tokens in a listing. -/
def Token.listedAll : List Token → List String
  | [] => []
  | token :: rest => Token.listed token :: Token.listedAll rest

end

/-- A payload as it reads within a report. -/
def Payload.shown : Payload → String
  | .text content => content
  | payload => payload.listed

/-- The text by which reports name a token. -/
def Token.lexeme (token : Token) : String :=
  match token.kind, token.payload with
  | .endOfFile, _ => "end of file"
  | .string, _ => "string"
  | .blockStart, _ => "indented block"
  | .blockEnd, _ => "end of block"
  | .statementEnd, _ => "end of statement"
  | kind, .absent => kind.name
  | _, payload => payload.shown

end Offside
