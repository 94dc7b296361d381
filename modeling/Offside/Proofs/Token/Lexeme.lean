import Offside.Proofs.Layout.WellFormed
import Offside.Token.Scan
import Mathlib.Data.List.TakeWhile

/-!
# Lexemes and their tokens

What each kind of lexeme says of the text it was read from, the tokens that lexemes have, and the
steps in which a text is scanned. Later modules take their cases from here and do not open the
definitions again.
-/

namespace Offside

open Literal (Item isQuote slices)

namespace Token

/-- The payload of a token that is spelled `text`. -/
def Kind.payload (kind : Kind) (text : String) : Payload :=
  match kind with
  | .trueWord => .boolean true
  | .falseWord => .boolean false
  | _ => .text text

theorem Kind.payload_eq_text {kind : Kind} (other : kind ≠ .trueWord) (other' : kind ≠ .falseWord)
    (text : String) : kind.payload text = .text text := by
  unfold payload
  split
  · exact absurd rfl other
  · exact absurd rfl other'
  · rfl

end Token

namespace Lexeme

open Token (Kind)

/-! ## Reading -/

theorem isBlank_iff {c : Char} :
    isBlank c ↔ c = ' ' ∨ c = '\t' ∨ c = '\r' ∨ c = '\x0c' := by
  simp [isBlank, or_assoc]

theorem eq_of_isQuote {c : Char} (quotes : isQuote c) :
    c = '"' ∨ c = '\'' ∨ c = Literal.backquote := by
  simpa [isQuote, or_assoc] using quotes

section Reading

variable {previous : Option Char} {c : Char} {rest : List Char}

theorem continuesWord_of_startsWord (starts : startsWord c) : continuesWord c := by
  revert starts
  simp only [startsWord, continuesWord, Text.isLetter, Text.isAlphanumeric, Char.isAlphanum]
  split <;> grind

theorem continuesWord_of_isNumeral (numeral : isNumeral c) : continuesWord c := by
  rcases Bool.or_eq_true_iff.mp numeral with digit | underscore
  · have small : c.toNat < 128 := by
      have bounds := digit
      simp only [Char.isDigit, Bool.and_eq_true, decide_eq_true_eq, ge_iff_le,
        UInt32.le_iff_toNat_le] at bounds
      exact Nat.lt_of_le_of_lt bounds.2 (by decide)
    simp [continuesWord, Text.isAlphanumeric, small, Char.isAlphanum, digit]
  · simp [continuesWord, underscore]

theorem isNumeral_of_fraction? {chars fraction : List Char}
    (found : fraction? chars = some fraction) : fraction ≠ [] ∧ ∀ d ∈ fraction, isNumeral d := by
  unfold fraction? at found
  split at found
  case h_1 d rest =>
      split at found
      case isTrue isDigit =>
          obtain rfl := Option.some.inj found
          refine ⟨List.cons_ne_nil _ _, List.forall_mem_cons.mpr ⟨by simp [isNumeral, isDigit], ?_⟩⟩
          exact fun e member => List.mem_takeWhile_imp member
      case isFalse => cases found
  case h_2 => cases found

/-- The lexemes that the text `c :: rest` starts with. -/
inductive Reads (previous : Option Char) (c : Char) (rest : List Char) : Lexeme → Prop where
  | blank : isBlank c → Reads previous c rest (.blank c)
  | comment : c = '#' → Reads previous c rest (.comment (rest.takeWhile (· ≠ '\n')))
  | newline : c = '\n' → Reads previous c rest .newline
  | literal : isQuote c → Reads previous c rest (.literal c (Literal.read c rest))
  | number : c.isDigit → Reads previous c rest
      (.number (c :: rest.takeWhile isNumeral) (fraction? (rest.dropWhile isNumeral)))
  | word : startsWord c → Reads previous c rest (.word (c :: rest.takeWhile continuesWord))
  | operator {text : String} {kind : Kind} : operator? (c :: rest) = some (text, kind) →
      Reads previous c rest
        (.operator (if kind = .not && marksCall previous then .bang else kind) text.toList)
  | stray : ¬startsWord c → operator? (c :: rest) = none → Reads previous c rest (.stray c)

theorem reads {lexeme : Lexeme} (found : read previous c rest = lexeme) :
    Reads previous c rest lexeme := by
  subst found
  fun_cases read previous c rest with
  | case1 isBlank => exact .blank isBlank
  | case2 _ isComment => exact .comment isComment
  | case3 _ _ newline => exact .newline newline
  | case4 _ _ _ quotes => exact .literal quotes
  | case5 _ _ _ _ isDigit => exact .number isDigit
  | case6 _ _ _ _ _ starts => exact .word starts
  | case7 _ _ _ _ _ _ text kind entry => exact .operator entry
  | case8 _ _ _ _ _ notWord none => exact .stray notWord none

theorem read_comment {text : List Char} (found : read previous c rest = .comment text) :
    text = rest.takeWhile (· ≠ '\n') := by
  cases reads found with
  | comment => rfl

theorem read_literal {quote : Char} {body : Literal.Body}
    (found : read previous c rest = .literal quote body) :
    isQuote quote ∧ body = Literal.read quote rest := by
  cases reads found with
  | literal quotes => exact ⟨quotes, rfl⟩

/-- A number is written with numerals, and so is what comes after its point. -/
theorem read_number {whole : List Char} {fraction : Option (List Char)}
    (found : read previous c rest = .number whole fraction) :
    (whole ≠ [] ∧ ∀ d ∈ whole, isNumeral d) ∧
      ∀ digits ∈ fraction, digits ≠ [] ∧ ∀ d ∈ digits, isNumeral d := by
  cases reads found with
  | number isDigit =>
      refine ⟨⟨List.cons_ne_nil _ _, List.forall_mem_cons.mpr ⟨by simp [isNumeral, isDigit], ?_⟩⟩,
        fun digits found => isNumeral_of_fraction? found⟩
      exact fun d member => List.mem_takeWhile_imp member

theorem read_word {letters : List Char} (found : read previous c rest = .word letters) :
    startsWord c ∧ letters = c :: rest.takeWhile continuesWord := by
  cases reads found with
  | word starts => exact ⟨starts, rfl⟩

/-- The operators are those of the table, and the call marker. -/
theorem read_operator {kind : Kind} {text : List Char}
    (found : read previous c rest = .operator kind text) :
    (String.ofList text, kind) ∈ ("!", .bang) :: Token.operators := by
  have mark : ∀ entry ∈ Token.operators, entry.2 = .not → entry.1 = "!" := by decide
  cases reads found with
  | @operator text' kind' entry =>
      have member := List.mem_of_find?_eq_some entry
      rw [String.ofList_toList]
      split
      case isTrue marks =>
        rw [Bool.and_eq_true, decide_eq_true_eq] at marks
        have same : text' = "!" := mark _ member marks.1
        rw [same]
        exact List.mem_cons_self
      case isFalse => exact List.mem_cons_of_mem _ member

/-- A class of characters that holds all of a lexeme other than a literal. -/
theorem forall_mem_slice {p : Char → Bool} (unquoted : isQuote c = false) (first : p c)
    (comment : c = '#' → ∀ d ∈ rest.takeWhile (· ≠ '\n'), p d)
    (letter : ∀ d, continuesWord d → p d) (point : p '.')
    (operators : Token.operators.all (·.1.toList.all p)) :
    ∀ d ∈ (read previous c rest).slice, p d := by
  generalize lexeme : read previous c rest = other
  cases reads lexeme with
  | blank | stray => simpa [slice] using first
  | comment isComment => exact List.forall_mem_cons.mpr ⟨isComment ▸ first, comment isComment⟩
  | newline newline =>
      subst newline
      simpa [slice] using first
  | literal quotes => cases unquoted.symm.trans quotes
  | number =>
      have numeral (d : Char) (isNumeral : Lexeme.isNumeral d) : p d :=
        letter d (continuesWord_of_isNumeral isNumeral)
      have whole : ∀ d ∈ c :: rest.takeWhile isNumeral, p d :=
        List.forall_mem_cons.mpr ⟨first, fun d member => numeral d (List.mem_takeWhile_imp member)⟩
      cases found : fraction? (rest.dropWhile isNumeral) with
      | none => exact whole
      | some fraction =>
          refine List.forall_mem_append.mpr ⟨whole, List.forall_mem_cons.mpr ⟨point, ?_⟩⟩
          exact fun d member => numeral d ((isNumeral_of_fraction? found).2 d member)
  | word =>
      refine List.forall_mem_cons.mpr ⟨first, fun d member => ?_⟩
      exact letter d (List.mem_takeWhile_imp member)
  | operator entry =>
      exact List.all_eq_true.mp (List.all_eq_true.mp operators _ (List.mem_of_find?_eq_some entry))

end Reading

/-! ## Tokens -/

/-- The token that a lexeme at `location` has, where `segments` are those of a string literal. -/
inductive Yields (location : Location) (segments : List Segment) : Lexeme → Token → Prop where
  | newline : Yields location segments .newline ⟨.newline, .text "\n", location⟩
  | operator (kind : Kind) (text : List Char) :
      Yields location segments (.operator kind text) ⟨kind, .text (String.ofList text), location⟩
  | keyword {letters : List Char} {kind : Kind} : (String.ofList letters, kind) ∈ Token.keywords →
      Yields location segments (.word letters)
        ⟨kind, kind.payload (String.ofList letters), location⟩
  | name (letters : List Char) :
      Yields location segments (.word letters)
        ⟨.identifier, .text (String.ofList letters), location⟩
  | integer {whole : List Char} : (digitsOf whole).length ≤ Overflow.digitLimit →
      Yields location segments (.number whole none)
        ⟨.integer, .integer (natOfDigits (digitsOf whole)), location⟩
  | float (whole fraction : List Char) (value : Float) :
      Yields location segments (.number whole (some fraction)) ⟨.float, .float value, location⟩
  | string (quote : Char) (items : List Item) :
      Yields location segments (.literal quote ⟨items, .closed⟩)
        ⟨.string, .segments segments, location⟩
  /-- A broken literal is reported at its start or after its well-formed items. -/
  | broken (quote : Char) (items : List Item) (defect : Literal.Defect) (skipped : List Char) :
      Yields location segments (.literal quote ⟨items, .broken defect skipped⟩)
        ⟨.invalid, .text defect.message, if defect.concernsWhole then location
          else location.advanceAll (quote :: slices items)⟩
  | stray (c : Char) :
      Yields location segments (.stray c)
        ⟨.invalid, .text ("Unexpected character: " ++ Text.quoted (String.singleton c)), location⟩

variable {location : Location} {segments : List Segment}

theorem yields_wordToken (letters : List Char) :
    Yields location segments (.word letters) (wordToken (String.ofList letters) location) := by
  have keyword {kind : Kind} (found : Token.keywords.lookup (String.ofList letters) = some kind) :
      Yields location segments (.word letters)
        ⟨kind, kind.payload (String.ofList letters), location⟩ := by
    obtain ⟨before, after, split, -⟩ := List.lookup_eq_some_iff.mp found
    exact .keyword (by simp [split])
  unfold wordToken
  split
  case h_1 found => exact keyword found
  case h_2 found => exact keyword found
  case h_3 kind other other' found =>
    rw [← Kind.payload_eq_text other other' (String.ofList letters)]
    exact keyword found
  case h_4 => exact .name letters

/-- All that the token of a lexeme can be. -/
theorem yields_of_token? {lexeme : Lexeme} {token : Token}
    (found : lexeme.token? location segments = .ok (some token)) :
    Yields location segments lexeme token := by
  cases lexeme with
  | blank | comment => cases found
  | newline =>
      obtain rfl := Option.some.inj (Except.ok.inj found)
      exact .newline
  | operator kind text =>
      obtain rfl := Option.some.inj (Except.ok.inj found)
      exact .operator kind text
  | stray c =>
      obtain rfl := Option.some.inj (Except.ok.inj found)
      exact .stray c
  | word letters =>
      obtain rfl := Option.some.inj (Except.ok.inj found)
      exact yields_wordToken letters
  | number whole fraction =>
      cases fraction with
      | none =>
          simp only [token?, numberToken] at found
          split at found
          case isTrue => cases found
          case isFalse short =>
            obtain rfl := Option.some.inj (Except.ok.inj found)
            exact .integer (Nat.not_lt.mp short)
      | some fraction =>
          obtain rfl := Option.some.inj (Except.ok.inj found)
          exact .float whole fraction _
  | literal quote body =>
      obtain rfl := Option.some.inj (Except.ok.inj found)
      obtain ⟨items, ending⟩ := body
      cases ending with
      | closed => exact .string quote items
      | broken defect skipped => exact .broken quote items defect skipped

end Lexeme

/-! ## Texts -/

namespace Token

open Layout (exists_of_bind_eq_ok)

/-- A text starts with a lexeme, and what comes after it is shorter. -/
theorem exists_after (previous : Option Char) (c : Char) (rest : List Char) :
    ∃ after, c :: rest = (Lexeme.read previous c rest).slice ++ after ∧
      after.length < (c :: rest).length := by
  obtain ⟨after, split⟩ := Lexeme.read_isPrefix previous c rest
  refine ⟨after, split.symm, ?_⟩
  have := List.length_pos_iff.mpr (Lexeme.read_slice_ne_nil previous c rest)
  rw [← split, List.length_append]
  omega

/-- A text is scanned lexeme by lexeme. -/
theorem scanFrom_cons_eq_ok {previous : Option Char} {location : Location} {c : Char}
    {rest after : List Char} {tokens : List Token}
    (split : c :: rest = (Lexeme.read previous c rest).slice ++ after) :
    scanFrom previous location (c :: rest) = .ok tokens ↔ ∃ segments token? later,
      scanItems (location.advance c) (Lexeme.read previous c rest).items = .ok segments ∧
      (Lexeme.read previous c rest).token? location segments = .ok token? ∧
      scanFrom (Lexeme.read previous c rest).slice.getLast?
        (location.advanceAll (Lexeme.read previous c rest).slice) after = .ok later ∧
      tokens = token?.toList ++ later := by
  have drop : (c :: rest).drop (Lexeme.read previous c rest).slice.length = after := by
    rw [split, List.drop_left]
  rw [scanFrom, drop]
  constructor
  · intro found
    obtain ⟨segments, itemsFound, found⟩ := exists_of_bind_eq_ok found
    obtain ⟨token?, tokenFound, found⟩ := exists_of_bind_eq_ok found
    obtain ⟨later, laterFound, found⟩ := exists_of_bind_eq_ok found
    exact ⟨segments, token?, later, itemsFound, tokenFound, laterFound, (Except.ok.inj found).symm⟩
  · rintro ⟨segments, token?, later, itemsFound, tokenFound, laterFound, rfl⟩
    rw [itemsFound]
    change ((Lexeme.read previous c rest).token? location segments >>= _) = _
    rw [tokenFound]
    change (scanFrom _ _ after >>= _) = _
    rw [laterFound]
    rfl

/-- The text `chars` at `location`, after the character `previous`, is cut into lexemes with the
given tokens. -/
inductive Scanning : (previous : Option Char) → Location → (chars : List Char) → List Token → Prop
  | done {previous : Option Char} {location : Location} :
      Scanning previous location [] [inserted .endOfFile location]
  | lexeme {previous : Option Char} {location : Location} {c : Char} {rest after : List Char}
      {segments : List Segment} {token? : Option Token} {later : List Token} :
      c :: rest = (Lexeme.read previous c rest).slice ++ after →
      scanItems (location.advance c) (Lexeme.read previous c rest).items = .ok segments →
      (Lexeme.read previous c rest).token? location segments = .ok token? →
      Scanning (Lexeme.read previous c rest).slice.getLast?
        (location.advanceAll (Lexeme.read previous c rest).slice) after later →
      Scanning previous location (c :: rest) (token?.toList ++ later)

theorem scanning_of_scanFrom {previous : Option Char} {location : Location} {chars : List Char}
    {tokens : List Token} (found : scanFrom previous location chars = .ok tokens) :
    Scanning previous location chars tokens := by
  match chars with
  | [] =>
      rw [scanFrom] at found
      obtain rfl := Except.ok.inj found
      exact .done
  | c :: rest =>
      obtain ⟨after, split, shorter⟩ := exists_after previous c rest
      obtain ⟨segments, token?, later, itemsFound, tokenFound, laterFound, rfl⟩ :=
        (scanFrom_cons_eq_ok split).mp found
      exact .lexeme split itemsFound tokenFound (scanning_of_scanFrom laterFound)
termination_by chars.length
decreasing_by exact shorter

end Token

end Offside
