import Offside.Proofs.Layout.WellFormed
import Offside.Proofs.Token.Lexeme
import Offside.Proofs.Token.Literal
import Mathlib.Data.List.Find

/-!
# Scanning one text after another

A lexeme other than a broken literal is found in the same way when a line feed follows the text. So
the tokens of two texts on lines of their own are those of the first up to its end, a line break,
and those of the second.
-/

namespace Offside

/-! ## Literals -/

namespace Literal

theorem read_append {quote : Char} {chars : List Char}
    (closed : (read quote chars).ending = .closed) (more : List Char) :
    read quote (chars ++ more) = read quote chars := by
  obtain ⟨after, split⟩ := read_isPrefix quote chars
  have found := read_closed closed (after ++ more)
  rwa [← List.append_assoc, split] at found

end Literal

/-! ## Lexemes -/

namespace Lexeme

open Token (Kind)
open Literal (isQuote)

/-- The characters that go on with no lexeme but a comment or a literal. -/
def isStop (c : Char) : Bool := isBlank c || c == '#' || c == '\n'

/-- A text that goes on with no lexeme but a comment or a literal. -/
def Stops (chars : List Char) : Prop := ∀ c ∈ chars.head?, isStop c

theorem stops_cons {c : Char} (stop : isStop c) (chars : List Char) : Stops (c :: chars) := by
  rintro _ ⟨⟩
  exact stop

theorem Stops.head {p : Char → Bool} {chars : List Char} (stops : Stops chars)
    (other : [' ', '\t', '\r', '\x0c', '#', '\n'].any p = false) :
    ∀ c ∈ chars.head?, p c = false := fun c here =>
  Bool.eq_false_iff.mpr (List.any_eq_false.mp other c
    (by simpa [isStop, isBlank, or_assoc] using stops c here))

section

variable {p : Char → Bool} {more : List Char} (stops : ∀ c ∈ more.head?, p c = false)
  (chars : List Char)

include stops

theorem takeWhile_append_of_head : (chars ++ more).takeWhile p = chars.takeWhile p := by
  induction chars with
  | nil => cases more <;> simp_all
  | cons c rest ih => simp [List.takeWhile_cons, ih]

theorem dropWhile_append_of_head :
    (chars ++ more).dropWhile p = chars.dropWhile p ++ more := by
  induction chars with
  | nil => cases more <;> simp_all
  | cons c rest ih =>
      simp only [List.cons_append, List.dropWhile_cons, ih]
      split <;> rfl

end

theorem fraction?_of_ne {c : Char} (other : c ≠ '.') (rest : List Char) :
    fraction? (c :: rest) = none := by
  unfold fraction?
  split
  · rename_i same
    cases same
    exact absurd rfl other
  · rfl

section

variable {more : List Char} (stops : Stops more) (chars : List Char)

include stops

theorem fraction?_append : fraction? (chars ++ more) = fraction? chars := by
  have notPoint := stops.head (p := (· == '.')) rfl
  have notDigit := stops.head (p := Char.isDigit) rfl
  have notNumeral := stops.head (p := isNumeral) rfl
  match chars with
  | [] =>
      cases more with
      | nil => rfl
      | cons c rest => exact fraction?_of_ne (by simpa using notPoint c rfl) rest
  | [c] =>
      by_cases point : c = '.'
      · subst point
        cases more with
        | nil => rfl
        | cons d rest => simp [fraction?, notDigit d rfl]
      · rw [List.cons_append, fraction?_of_ne point, fraction?_of_ne point]
  | c :: d :: rest =>
      by_cases point : c = '.'
      · subst point
        rw [List.cons_append, List.cons_append, fraction?, fraction?,
          takeWhile_append_of_head notNumeral]
      · rw [List.cons_append, fraction?_of_ne point, fraction?_of_ne point]

theorem isPrefixOf_append {text : List Char} (inner : ∀ c ∈ text, isStop c = false) :
    text.isPrefixOf (chars ++ more) = text.isPrefixOf chars := by
  induction text generalizing chars with
  | nil => simp
  | cons c text ih =>
      obtain ⟨here, later⟩ := List.forall_mem_cons.mp inner
      cases chars with
      | nil =>
          cases more with
          | nil => rfl
          | cons d rest =>
              have other : c ≠ d := by
                rintro rfl
                exact absurd (stops c rfl) (by simp [here])
              simp [List.isPrefixOf, other]
      | cons d rest => simp [List.isPrefixOf, ih rest later]

theorem operator?_append : operator? (chars ++ more) = operator? chars := by
  have table : Token.operators.all (·.1.toList.all (!isStop ·)) := by decide +kernel
  have inner : ∀ entry ∈ Token.operators, ∀ c ∈ entry.1.toList, isStop c = false := by
    simpa [List.all_eq_true] using table
  exact List.find?_congr fun entry member => isPrefixOf_append stops chars (inner entry member)

/-- A number, a word or an operator ends where it is stopped. -/
theorem read_append {c : Char} (unquoted : isQuote c = false) (notComment : c ≠ '#')
    (previous : Option Char) : read previous c (chars ++ more) = read previous c chars := by
  have notNumeral := stops.head (p := isNumeral) rfl
  have notLetter := stops.head (p := continuesWord) rfl
  have operators : operator? (c :: (chars ++ more)) = operator? (c :: chars) :=
    operator?_append stops (c :: chars)
  simp only [read, if_neg notComment, unquoted, operators, dropWhile_append_of_head notNumeral,
    takeWhile_append_of_head notNumeral, takeWhile_append_of_head notLetter, fraction?_append stops,
    Bool.false_eq_true, if_false]

end

theorem read_numberSign (previous : Option Char) (rest : List Char) :
    read previous '#' rest = .comment (rest.takeWhile (· ≠ '\n')) := rfl

theorem read_quote {c : Char} (quoted : isQuote c) (previous : Option Char) (rest : List Char) :
    read previous c rest = .literal c (Literal.read c rest) := by
  rcases eq_of_isQuote quoted with rfl | rfl | rfl <;> rfl

/-- Whether a lexeme is a literal with a defect. -/
def IsBroken : Lexeme → Prop
  | .literal _ body => body.ending ≠ .closed
  | _ => False

/-- A lexeme other than a broken literal ends before the line does. -/
theorem read_line {previous : Option Char} {c : Char} {rest : List Char}
    (whole : ¬(read previous c rest).IsBroken) (more : List Char) :
    read previous c (rest ++ '\n' :: more) = read previous c rest := by
  by_cases comment : c = '#'
  · subst comment
    have ends : ∀ c ∈ ('\n' :: more).head?, decide (c ≠ '\n') = false := by simp
    rw [read_numberSign, read_numberSign, takeWhile_append_of_head ends]
  · by_cases quoted : isQuote c
    · rw [read_quote quoted] at whole
      rw [read_quote quoted, read_quote quoted, Literal.read_append (not_not.mp whole)]
    · exact read_append (stops_cons (by decide) more) rest (by simpa using quoted) comment previous

/-! ## Tokens of lexemes -/

/-- The kinds of the tokens that stand for a piece of text. -/
def isRaw (kind : Kind) : Bool := !Layout.isLayout kind && kind != .endOfFile

theorem isRaw_token? {previous : Option Char} {c : Char} {rest : List Char} {location : Location}
    {segments : List Segment} {token : Token}
    (found : (read previous c rest).token? location segments = .ok (some token)) :
    isRaw token.kind := by
  have operators : ∀ entry ∈ ("!", .bang) :: Token.operators, isRaw entry.2 := by decide
  have keywords : ∀ entry ∈ Token.keywords, isRaw entry.2 := by decide
  have yields := yields_of_token? found
  generalize lexeme : read previous c rest = other at yields
  cases yields with
  | operator => exact operators _ (read_operator lexeme)
  | keyword member => exact keywords _ member
  | _ => rfl

/-- A broken literal has an invalid token. -/
theorem not_isBroken {lexeme : Lexeme} {location : Location} {segments : List Segment}
    {token? : Option Token} (found : lexeme.token? location segments = .ok token?)
    (valid : ∀ token ∈ token?, token.kind ≠ .invalid) : ¬lexeme.IsBroken := by
  cases lexeme with
  | literal quote body =>
      obtain rfl := Except.ok.inj found
      intro broken
      cases ending : body.ending with
      | closed => exact broken ending
      | broken defect skipped => exact valid _ rfl (by simp [literalToken, ending])
  | _ => exact not_false

end Lexeme

/-! ## Texts -/

namespace Token

open Layout (exists_of_bind_eq_ok)
open Lexeme (isRaw)

/-- The end of a line. -/
def lineBreak (location : Location) : Token := ⟨.newline, .text "\n", location⟩

/-- What comes before a text matters only as far as it makes an exclamation mark mark a call. -/
theorem scanFrom_congr {previous previous' : Option Char}
    (same : Lexeme.marksCall previous = Lexeme.marksCall previous') (location : Location)
    (chars : List Char) : scanFrom previous location chars = scanFrom previous' location chars := by
  cases chars with
  | nil => rw [scanFrom, scanFrom]
  | cons c rest => rw [scanFrom, scanFrom, Lexeme.read, Lexeme.read, same]

theorem scanFrom_newline (previous : Option Char) (location : Location) (more : List Char) :
    scanFrom previous location ('\n' :: more) =
      (lineBreak location :: ·) <$> scanFrom none (location.advance '\n') more := by
  have previous' : Lexeme.marksCall (some '\n') = Lexeme.marksCall none := by decide
  have lexeme : Lexeme.read previous '\n' more = .newline := by
    rw [Lexeme.read, if_neg (by decide), if_neg (by decide), if_pos rfl]
  rw [scanFrom, lexeme, ← scanFrom_congr previous']
  simp [Lexeme.slice, Lexeme.items, scanItems, Lexeme.token?]
  rfl

/-- The tokens of a text are those of its lexemes and an end of file. If none of them is invalid,
then they are followed by those of the next line, whatever it is. -/
theorem exists_scanFrom {previous : Option Char} {location : Location} {chars : List Char}
    {tokens : List Token} (found : scanFrom previous location chars = .ok tokens) :
    ∃ before, tokens = before ++ [inserted .endOfFile (location.advanceAll chars)] ∧
      (∀ token ∈ before, isRaw token.kind) ∧
      ((∀ token ∈ before, token.kind ≠ .invalid) → ∀ more,
        scanFrom previous location (chars ++ '\n' :: more) =
          (before ++ lineBreak (location.advanceAll chars) :: ·) <$>
            scanFrom none ((location.advanceAll chars).advance '\n') more) := by
  replace found := scanning_of_scanFrom found
  induction found with
  | done => exact ⟨[], rfl, by simp, fun _ more => scanFrom_newline _ _ more⟩
  | @lexeme previous location c rest after segments token? _ split itemsFound tokenFound _ ih =>
      obtain ⟨before, rfl, raw, later⟩ := ih
      rw [← Location.advanceAll_append, ← split] at later ⊢
      refine ⟨token?.toList ++ before, (List.append_assoc ..).symm, ?_, fun valid more => ?_⟩
      · refine List.forall_mem_append.mpr ⟨fun token member => ?_, raw⟩
        obtain rfl := Option.mem_toList.mp member
        exact Lexeme.isRaw_token? tokenFound
      · obtain ⟨firstValid, laterValid⟩ := List.forall_mem_append.mp valid
        have whole := Lexeme.not_isBroken tokenFound fun token member =>
          firstValid token (Option.mem_toList.mpr member)
        have dropped : (c :: rest ++ '\n' :: more).drop (Lexeme.read previous c rest).slice.length =
            after ++ '\n' :: more := by
          rw [split, List.append_assoc, List.drop_left]
        rw [List.cons_append] at dropped ⊢
        rw [scanFrom, Lexeme.read_line whole, dropped]
        rw [itemsFound, later laterValid more]
        change (Lexeme.token? location segments _ >>= fun token? => _) = _
        rw [tokenFound]
        cases scanFrom none _ more with
        | error overflow => rfl
        | ok others => exact congrArg Except.ok (List.append_assoc ..).symm

end Token

end Offside
