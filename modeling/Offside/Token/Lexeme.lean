import Offside.Overflow
import Offside.Text.Letter
import Offside.Text.Quoted
import Offside.Token
import Offside.Token.Literal

/-!
# Lexemes

A lexeme is a piece of source text with what it is: blank space, a comment, a line feed, a literal,
a number, a word, an operator, or a character that fits nowhere. Any text starts with a lexeme, and
a lexeme spans at least one character, so a text is cut into lexemes without gaps.
-/

namespace Offside

open Literal

/-- A piece of source text. -/
inductive Lexeme where
  /-- A blank within a line. -/
  | blank (c : Char)
  /-- A number sign and the rest of its line. -/
  | comment (text : List Char)
  /-- A line feed. -/
  | newline
  /-- A string literal between quotes `quote`. -/
  | literal (quote : Char) (body : Body)
  /-- Digits and underscores, and those after a point. -/
  | number (whole : List Char) (fraction : Option (List Char))
  /-- A name or a reserved word. -/
  | word (letters : List Char)
  /-- An operator or a punctuation mark. -/
  | operator (kind : Token.Kind) (text : List Char)
  /-- A character that starts no lexeme. -/
  | stray (c : Char)

namespace Lexeme

/-- The blanks within a line. -/
def isBlank (c : Char) : Bool :=
  c == ' ' || c == '\t' || c == '\r' || c == '\x0c'

/-- The characters of numbers. -/
def isNumeral (c : Char) : Bool :=
  c.isDigit || c == '_'

/-- The characters that a word starts with. -/
def startsWord (c : Char) : Bool :=
  Text.isLetter c || c == '_'

/-- The characters that a word goes on with. -/
def continuesWord (c : Char) : Bool :=
  Text.isAlphanumeric c || c == '_'

/-- Whether an exclamation mark after the character `previous` marks a call. -/
def marksCall : Option Char → Bool
  | none => false
  | some c => continuesWord c || c == ')' || c == ']'

/-- The digits after a point, if the text starts with a point and a digit. -/
def fraction? : List Char → Option (List Char)
  | '.' :: d :: rest => if d.isDigit then some (d :: rest.takeWhile isNumeral) else none
  | _ => none

/-- The first operator in the table that the text starts with. -/
def operator? (chars : List Char) : Option (String × Token.Kind) :=
  Token.operators.find? fun entry => entry.1.toList.isPrefixOf chars

/-- The lexeme at the start of the text `c :: rest`, which the character `previous` precedes. -/
def read (previous : Option Char) (c : Char) (rest : List Char) : Lexeme :=
  if isBlank c then .blank c
  else if c = '#' then .comment (rest.takeWhile (· ≠ '\n'))
  else if c = '\n' then .newline
  else if isQuote c then .literal c (Literal.read c rest)
  else if c.isDigit then
    .number (c :: rest.takeWhile isNumeral) (fraction? (rest.dropWhile isNumeral))
  else if startsWord c then .word (c :: rest.takeWhile continuesWord)
  else
    match operator? (c :: rest) with
    | some (text, kind) =>
      .operator (if kind = .not && marksCall previous then .bang else kind) text.toList
    | none => .stray c

/-- The characters that a lexeme spans. -/
def slice : Lexeme → List Char
  | .blank c => [c]
  | .comment text => '#' :: text
  | .newline => ['\n']
  | .literal quote body => quote :: body.slice quote
  | .number whole none => whole
  | .number whole (some fraction) => whole ++ '.' :: fraction
  | .word letters => letters
  | .operator _ text => text
  | .stray c => [c]

/-- The items of a string literal; other lexemes have none. -/
def items : Lexeme → List Item
  | .literal _ body => body.items
  | _ => []

/-- The number that a list of decimal digits denotes. -/
def natOfDigits (digits : List Char) : Nat :=
  digits.foldl (fun n d => 10 * n + (d.toNat - '0'.toNat)) 0

/-- The digits of a number without the underscores between them. -/
def digitsOf (numerals : List Char) : List Char :=
  numerals.filter (· ≠ '_')

/-- The kind and the payload of a word. -/
def wordToken (letters : String) (location : Location) : Token :=
  match Token.keywords.lookup letters with
  | some .trueWord => ⟨.trueWord, .boolean true, location⟩
  | some .falseWord => ⟨.falseWord, .boolean false, location⟩
  | some kind => ⟨kind, .text letters, location⟩
  | none => ⟨.identifier, .text letters, location⟩

/-- The token of a number: an integer of a limited number of digits, or the nearest double. -/
def numberToken (whole : List Char) (fraction : Option (List Char)) (location : Location) :
    Except Overflow Token :=
  let whole := digitsOf whole
  match fraction with
  | none =>
    if Overflow.digitLimit < whole.length then .error (.literal whole.length)
    else .ok ⟨.integer, .integer (natOfDigits whole), location⟩
  | some fraction =>
    let fraction := digitsOf fraction
    .ok ⟨.float, .float (Float.ofScientific (natOfDigits (whole ++ fraction)) true fraction.length),
      location⟩

/-- The token of a string literal: its segments, or its defect. -/
def literalToken (quote : Char) (body : Body) (segments : List Segment) (location : Location) :
    Token :=
  match body.ending with
  | .closed => ⟨.string, .segments segments, location⟩
  | .broken defect _ =>
    let place :=
      if defect.concernsWhole then location else location.advanceAll (quote :: slices body.items)
    ⟨.invalid, .text defect.message, place⟩

/-- The token of a lexeme at `location`, where `segments` are those of a string literal. Blanks and
comments have no token. -/
def token? (location : Location) (segments : List Segment) : Lexeme → Except Overflow (Option Token)
  | .blank _ => .ok none
  | .comment _ => .ok none
  | .newline => .ok (some ⟨.newline, .text "\n", location⟩)
  | .literal quote body => .ok (some (literalToken quote body segments location))
  | .number whole fraction => (numberToken whole fraction location).map some
  | .word letters => .ok (some (wordToken (String.ofList letters) location))
  | .operator kind text => .ok (some ⟨kind, .text (String.ofList text), location⟩)
  | .stray c =>
    .ok (some ⟨.invalid, .text ("Unexpected character: " ++ Text.quoted (String.singleton c)),
      location⟩)

theorem fraction?_isPrefix {chars fraction : List Char} (h : fraction? chars = some fraction) :
    '.' :: fraction <+: chars := by
  unfold fraction? at h
  split at h
  · split at h
    · cases h
      exact (List.prefix_cons_inj _).2 ((List.prefix_cons_inj _).2 (List.takeWhile_prefix _))
    · cases h
  · cases h

theorem operator?_isPrefix {chars : List Char} {text : String} {kind : Token.Kind}
    (h : operator? chars = some (text, kind)) : text.toList <+: chars := by
  simpa using List.find?_some h

theorem operator?_ne_nil {chars : List Char} {text : String} {kind : Token.Kind}
    (h : operator? chars = some (text, kind)) : text.toList ≠ [] := by
  have member := List.mem_of_find?_eq_some h
  have nonempty : ∀ entry ∈ Token.operators, entry.1.toList ≠ [] := by decide
  exact nonempty _ member

/-- The slice of a lexeme is a prefix of the text it was read from. -/
theorem read_isPrefix (previous : Option Char) (c : Char) (rest : List Char) :
    (read previous c rest).slice <+: c :: rest := by
  fun_cases read previous c rest with
  | case1 => simp [slice]
  | case2 _ comment =>
    subst comment
    exact (List.prefix_cons_inj _).2 (List.takeWhile_prefix _)
  | case3 _ _ newline => simp [slice, newline]
  | case4 => exact (List.prefix_cons_inj _).2 (Literal.read_isPrefix _ _)
  | case5 =>
    cases h : fraction? (rest.dropWhile isNumeral) with
    | none => exact (List.prefix_cons_inj _).2 (List.takeWhile_prefix _)
    | some fraction =>
      refine (List.prefix_cons_inj _).2 ?_
      have split := List.takeWhile_append_dropWhile (p := isNumeral) (l := rest)
      conv => rhs; rw [← split]
      exact (List.prefix_append_right_inj _).2 (fraction?_isPrefix h)
  | case6 => exact (List.prefix_cons_inj _).2 (List.takeWhile_prefix _)
  | case7 _ _ _ _ _ _ text kind h => exact operator?_isPrefix h
  | case8 => simp [slice]

/-- A lexeme spans at least one character. -/
theorem read_slice_ne_nil (previous : Option Char) (c : Char) (rest : List Char) :
    (read previous c rest).slice ≠ [] := by
  fun_cases read previous c rest with
  | case1 => simp [slice]
  | case2 => simp [slice]
  | case3 => simp [slice]
  | case4 => simp [slice]
  | case5 => cases fraction? (rest.dropWhile isNumeral) <;> simp [slice]
  | case6 => simp [slice]
  | case7 _ _ _ _ _ _ text kind h => exact operator?_ne_nil h
  | case8 => simp [slice]

/-- The items of a literal span fewer characters than the literal. -/
theorem slices_items_lt (previous : Option Char) (c : Char) (rest : List Char) :
    (slices (read previous c rest).items).length < (c :: rest).length := by
  have bound := (read_isPrefix previous c rest).length_le
  cases h : read previous c rest with
  | literal quote body =>
    rw [h] at bound
    simp only [slice, Body.slice, List.length_cons, List.length_append] at bound
    simp only [items, List.length_cons]
    omega
  | _ => simp [items, slices]

end Lexeme

end Offside
