import Offside.Number.Exact
import Offside.Token

/-!
# Equality of tokens

Two tokens are equal if they have the same kind and the same payload, wherever they stand. Numbers
in payloads are compared by value, and a truth value counts as one or zero.
-/

namespace Offside

/-- The number that a payload stands for. -/
def Payload.number? : Payload → Option Number.Exact
  | .integer value => some (.ofInt value)
  | .float value => some (.ofFloat value)
  | .boolean value => some (.ofInt (if value then 1 else 0))
  | _ => none

mutual

/-- Equality of payloads. -/
def Payload.same : Payload → Payload → Bool
  | .absent, .absent => true
  | .text left, .text right => left == right
  | .segments left, .segments right => Segment.sameAll left right
  | left, right =>
    match left.number?, right.number? with
    | some left, some right => left.equal right
    | _, _ => false

/-- Equality of lists of segments. -/
def Segment.sameAll : List Segment → List Segment → Bool
  | [], [] => true
  | .text left :: lefts, .text right :: rights => left == right && Segment.sameAll lefts rights
  | .expression tokens source :: lefts, .expression tokens' source' :: rights =>
    Token.sameAll tokens tokens' && source == source' && Segment.sameAll lefts rights
  | _, _ => false

/-- Equality of tokens. -/
def Token.same : Token → Token → Bool
  | ⟨kind, payload, _⟩, ⟨kind', payload', _⟩ => kind == kind' && Payload.same payload payload'

/-- Equality of lists of tokens. -/
def Token.sameAll : List Token → List Token → Bool
  | [], [] => true
  | left :: lefts, right :: rights => Token.same left right && Token.sameAll lefts rights
  | _, _ => false

end

end Offside
