import Offside.Token.Lexeme

/-!
# From source text to tokens

A text is cut into lexemes, and each lexeme other than a blank or a comment gives one token at the
location of its first character. The sources of interpolations are scanned in the same way from the
place where they stand. Scanning goes through every text; it is refused only if an integer literal
has too many digits.
-/

namespace Offside.Token

open Literal

/-- Put a character in front of the text at the start of a list of segments. -/
def consText (c : Char) : List Segment → List Segment
  | .text text :: rest => .text (String.singleton c ++ text) :: rest
  | segments => .text (String.singleton c) :: segments

mutual

/-- The tokens of the text `chars`, which starts at `location` after the character `previous`. -/
def scanFrom (previous : Option Char) (location : Location) (chars : List Char) :
    Except Overflow (List Token) :=
  match chars with
  | [] => .ok [⟨.endOfFile, .absent, location⟩]
  | c :: rest => do
    let lexeme := Lexeme.read previous c rest
    let segments ← scanItems (location.advance c) lexeme.items
    let token? ← lexeme.token? location segments
    let later ← scanFrom lexeme.slice.getLast? (location.advanceAll lexeme.slice)
      ((c :: rest).drop lexeme.slice.length)
    return token?.toList ++ later
termination_by chars.length
decreasing_by
  · exact Lexeme.slices_items_lt previous c rest
  · have := List.length_pos_iff.2 (Lexeme.read_slice_ne_nil previous c rest)
    simp only [List.length_drop, List.length_cons]
    omega

/-- The segments of a string literal's items, the first of which stands at `location`. -/
def scanItems (location : Location) (items : List Item) : Except Overflow (List Segment) :=
  match items with
  | [] => .ok []
  | .interpolation source :: rest => do
    let tokens ← scanFrom none (location.advance '\x7b') source
    let later ← scanItems (location.advanceAll (Item.interpolation source).slice) rest
    return .expression tokens (String.ofList source) :: later
  | .plain c :: rest => (scanItems (location.advanceAll (Item.plain c).slice) rest).map (consText c)
  | .escape c denoted :: rest =>
    (scanItems (location.advanceAll (Item.escape c denoted).slice) rest).map (consText denoted)
  | .brace c :: rest => (scanItems (location.advanceAll (Item.brace c).slice) rest).map (consText c)
termination_by (slices items).length
decreasing_by
  all_goals
    simp only [slices_cons, Item.slice, List.length_append, List.length_cons, List.length_nil]
    omega

end

/-- The tokens of a text that starts at `start`. -/
def scanAt (start : Location) (source : String) : Except Overflow (List Token) :=
  scanFrom none start source.toList

/-- The tokens of a text. -/
def scan (source : String) (file : Option String) : Except Overflow (List Token) :=
  scanAt (.start file) source

end Offside.Token
