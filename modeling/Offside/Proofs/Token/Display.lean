import Offside.Proofs.Token.Tiling
import Offside.Value.Display
import Mathlib.Data.Nat.Digits.Defs

/-!
# Scanning displayed data

The texts of data are cut into tokens piece by piece: a piece has the same tokens wherever it
stands, as long as what follows cannot go on with it. Numbers and words go on with digits and
letters, so in a displayed value they end before a comma or a closing bracket.
-/

namespace Offside

open Literal (Item backquote isQuote slices)

/-! ## Pieces of a text -/

namespace Token

/-- A text at a place has the given tokens, whatever comes before it, if what follows is allowed. -/
def Scans (follow : List Char → Prop) (location : Location) (chars : List Char)
    (tokens : List Token) : Prop :=
  ∀ previous rest, follow rest → ∃ previous', scanFrom previous location (chars ++ rest) =
    (tokens ++ ·) <$> scanFrom previous' (location.advanceAll chars) rest

/-- What follows ends an element: nothing, a comma or a closing bracket. -/
def EndsElement (rest : List Char) : Prop := ∀ c ∈ rest.head?, c = ',' ∨ c = ')' ∨ c = ']'

theorem EndsElement.not_of {rest : List Char} (ends : EndsElement rest) {p : Char → Bool}
    (others : p ',' = false ∧ p ')' = false ∧ p ']' = false) : ∀ c ∈ rest.head?, p c = false := by
  intro c head
  rcases ends c head with rfl | rfl | rfl
  · exact others.1
  · exact others.2.1
  · exact others.2.2

section Scans

variable {follow follow' : List Char → Prop} {location : Location}
variable {chars chars' : List Char} {tokens tokens' : List Token}

theorem Scans.append (first : Scans follow location chars tokens)
    (second : Scans follow' (location.advanceAll chars) chars' tokens')
    (fits : ∀ rest, follow' rest → follow (chars' ++ rest)) :
    Scans follow' location (chars ++ chars') (tokens ++ tokens') := by
  intro previous rest follows
  obtain ⟨middle, found⟩ := first previous (chars' ++ rest) (fits rest follows)
  obtain ⟨last, found'⟩ := second middle rest follows
  refine ⟨last, ?_⟩
  rw [List.append_assoc, found, found', Location.advanceAll_append]
  cases scanFrom last _ rest with
  | error => rfl
  | ok later => exact congrArg Except.ok (List.append_assoc ..).symm

theorem Scans.mono (scans : Scans follow location chars tokens)
    (weaker : ∀ rest, follow' rest → follow rest) : Scans follow' location chars tokens :=
  fun previous rest follows => scans previous rest (weaker rest follows)

theorem Scans.nil (location : Location) : Scans follow location [] [] :=
  fun previous rest _ => ⟨previous, (id_map (scanFrom previous location rest)).symm⟩

/-- A text with nothing after it. -/
theorem Scans.whole (scans : Scans follow location chars tokens) (follows : follow []) :
    scanFrom none location chars =
      .ok (tokens ++ [inserted .endOfFile (location.advanceAll chars)]) := by
  obtain ⟨last, found⟩ := scans none [] follows
  rw [List.append_nil, scanFrom] at found
  exact found

/-- A lexeme that is read in front of all that is allowed to follow. -/
theorem Scans.lexeme (lexeme : Lexeme) {segments : List Segment} {c : Char}
    (read : ∀ previous rest, follow rest → Lexeme.read previous c (chars ++ rest) = lexeme)
    (slice : lexeme.slice = c :: chars)
    (items : scanItems (location.advance c) lexeme.items = .ok segments)
    (token : (lexeme.token? location segments).map Option.toList = .ok tokens) :
    Scans follow location (c :: chars) tokens := by
  intro previous rest follows
  refine ⟨(c :: chars).getLast?, ?_⟩
  rw [List.cons_append, scanFrom, read previous rest follows, items, slice, ← List.cons_append,
    List.drop_left]
  change (lexeme.token? location segments >>= fun token? => _) = _
  cases found : lexeme.token? location segments with
  | error overflow =>
      rw [found] at token
      cases token
  | ok token? =>
      rw [found] at token
      obtain rfl := Except.ok.inj token
      rfl

/-- A lexeme other than a string literal. -/
theorem Scans.simple (lexeme : Lexeme) {c : Char}
    (read : ∀ previous rest, follow rest → Lexeme.read previous c (chars ++ rest) = lexeme)
    (slice : lexeme.slice = c :: chars) (items : lexeme.items = [])
    (token : (lexeme.token? location []).map Option.toList = .ok tokens) :
    Scans follow location (c :: chars) tokens :=
  .lexeme lexeme read slice (by rw [items, scanItems]) token

end Scans

/-! ## Blanks and marks -/

theorem scans_space (location : Location) : Scans (fun _ => True) location [' '] [] :=
  .simple (.blank ' ') (fun _ _ _ => rfl) rfl rfl rfl

/-- The brackets and the comma of displayed data. -/
def marks : List (Char × Kind) :=
  [('[', .leftBracket), (']', .rightBracket), ('(', .leftParen), (')', .rightParen), (',', .comma)]

theorem scans_mark {c : Char} {kind : Kind} (isMark : (c, kind) ∈ marks) (location : Location) :
    Scans (fun _ => True) location [c] [⟨kind, .text (String.singleton c), location⟩] := by
  have read (previous : Option Char) (rest : List Char) :
      Lexeme.read previous c rest = .operator kind [c] := by
    simp only [marks, List.mem_cons, List.not_mem_nil, Prod.mk.injEq, or_false] at isMark
    rcases isMark with ⟨rfl, rfl⟩ | ⟨rfl, rfl⟩ | ⟨rfl, rfl⟩ | ⟨rfl, rfl⟩ | ⟨rfl, rfl⟩ <;> rfl
  exact .simple (.operator kind [c]) (fun previous rest _ => read previous rest) rfl rfl rfl

/-- A text between brackets. -/
theorem Scans.bracketed (opening closing : Char × Kind) (opens : opening ∈ marks)
    (closes : closing ∈ marks) (ends : EndsElement [closing.1]) {location : Location}
    {chars : List Char} {tokens : List Token}
    (inner : Scans EndsElement (location.advance opening.1) chars tokens) :
    ∃ first last : Token, first.kind = opening.2 ∧ last.kind = closing.2 ∧
      Scans (fun _ => True) location (opening.1 :: (chars ++ [closing.1]))
        (first :: (tokens ++ [last])) := by
  have fits (rest : List Char) : EndsElement ([closing.1] ++ rest) := ends
  exact ⟨_, _, rfl, rfl, (scans_mark opens location).append
    (inner.append (scans_mark closes _) fun rest _ => fits rest) fun _ _ => trivial⟩

/-- An element, a comma and a blank, and what comes after them. -/
theorem Scans.separated {follow : List Char → Prop} {location : Location}
    {chars chars' : List Char} {tokens tokens' : List Token}
    (element : Scans EndsElement location chars tokens)
    (later : Scans follow ((location.advanceAll chars).advanceAll [',', ' ']) chars' tokens') :
    ∃ comma : Token, comma.kind = .comma ∧
      Scans follow location (chars ++ ([',', ' '] ++ chars')) (tokens ++ comma :: tokens') := by
  have isMark : (',', Kind.comma) ∈ marks := by decide
  have separator := (scans_mark isMark (location.advanceAll chars)).append (scans_space _)
    fun _ _ => trivial
  have fits (rest : List Char) : EndsElement ([',', ' '] ++ chars' ++ rest) := by
    simp [EndsElement]
  exact ⟨_, rfl, element.append (separator.append later fun _ _ => trivial) fun rest _ => fits rest⟩

/-! ## Words and numbers -/

theorem takeWhile_of_ends {p : Char → Bool} {chars rest : List Char} (inside : ∀ c ∈ chars, p c)
    (ends : ∀ c ∈ rest.head?, p c = false) :
    (chars ++ rest).takeWhile p = chars ∧ (chars ++ rest).dropWhile p = rest := by
  rw [List.takeWhile_append_of_pos inside, List.dropWhile_append_of_pos inside]
  cases rest with
  | nil => simp
  | cons c rest =>
      have stops := ends c rfl
      rw [List.takeWhile_cons_of_neg (by simp [stops]),
        List.dropWhile_cons_of_neg (by simp [stops])]
      exact ⟨List.append_nil _, rfl⟩

theorem scans_word {c : Char} {letters : List Char}
    (read : ∀ previous rest,
      Lexeme.read previous c rest = .word (c :: rest.takeWhile Lexeme.continuesWord))
    (inside : letters.all Lexeme.continuesWord) (location : Location) :
    Scans EndsElement location (c :: letters)
      [Lexeme.wordToken (String.ofList (c :: letters)) location] := by
  refine .simple (.word (c :: letters)) (fun previous rest ends => ?_) rfl rfl rfl
  rw [read, (takeWhile_of_ends (List.all_eq_true.mp inside) (ends.not_of (by decide))).1]

theorem scans_boolean (value : Bool) (location : Location) :
    Scans EndsElement location (if value then "true" else "false").toList
      [⟨if value then .trueWord else .falseWord, .boolean value, location⟩] := by
  cases value with
  | true => exact scans_word (fun _ _ => rfl) rfl location
  | false => exact scans_word (fun _ _ => rfl) rfl location

theorem read_digit {d : Char} (isDigit : d.isDigit) (previous : Option Char) (rest : List Char) :
    Lexeme.read previous d rest =
      .number (d :: rest.takeWhile Lexeme.isNumeral)
        (Lexeme.fraction? (rest.dropWhile Lexeme.isNumeral)) := by
  have other (c : Char) (noDigit : c.isDigit = false) : d ≠ c := by
    rintro rfl
    cases noDigit.symm.trans isDigit
  have notBlank : Lexeme.isBlank d = false := by
    simp [Lexeme.isBlank, other ' ' rfl, other '\t' rfl, other '\r' rfl, other '\x0c' rfl]
  have notQuote : Literal.isQuote d = false := by
    simp [Literal.isQuote, Literal.backquote, other '"' rfl, other '\'' rfl, other '\x60' rfl]
  simp [Lexeme.read, notBlank, other '#' rfl, other '\n' rfl, notQuote, isDigit]

theorem natOfDigits_toDigits (n : Nat) : Lexeme.natOfDigits (Nat.toDigits 10 n) = n := by
  rw [Lexeme.natOfDigits, ← Nat.ofDigitChars_eq_foldl]
  exact Nat.ofDigitChars_toDigits (by decide) (by decide)

theorem scans_natural {n : Nat} (short : n < 10 ^ Overflow.digitLimit) (location : Location) :
    Scans EndsElement location (Nat.toDigits 10 n) [⟨.integer, .integer n, location⟩] := by
  have digits (c : Char) (member : c ∈ Nat.toDigits 10 n) : c.isDigit :=
    Nat.isDigit_of_mem_toDigits (by decide) (by decide) member
  have length : (Nat.toDigits 10 n).length ≤ Overflow.digitLimit :=
    Nat.toDigits_length 10 n _ (by decide) short
  have value := natOfDigits_toDigits n
  obtain ⟨d, others, split⟩ := List.exists_cons_of_ne_nil (@Nat.toDigits_ne_nil n 10)
  rw [split] at digits length value ⊢
  have noUnderscore : Lexeme.digitsOf (d :: others) = d :: others := by
    refine List.filter_eq_self.mpr fun c member => ?_
    simpa using fun (same : c = '_') => by simpa [same] using digits c member
  obtain ⟨first, digits⟩ := List.forall_mem_cons.mp digits
  have numerals (c : Char) (member : c ∈ others) : Lexeme.isNumeral c := by
    simp [Lexeme.isNumeral, digits c member]
  refine .simple (.number (d :: others) none) (fun previous rest ends => ?_) rfl rfl ?_
  · obtain ⟨taken, dropped⟩ := takeWhile_of_ends numerals (ends.not_of (by decide))
    rw [read_digit first, taken, dropped]
    cases rest with
    | nil => rfl
    | cons c rest =>
        have notPoint : c ≠ '.' := by simpa using ends.not_of (p := (· == '.')) (by decide) c rfl
        rw [Lexeme.fraction?_of_ne notPoint]
  · have token : Lexeme.numberToken (d :: others) none location =
        .ok ⟨.integer, .integer n, location⟩ := by
      rw [Lexeme.numberToken, noUnderscore, value]
      exact if_neg (Nat.not_lt.mpr length)
    rw [Lexeme.token?, token]
    rfl

/-- A minus sign before a digit is no part of an arrow. -/
theorem scans_minus (location : Location) :
    Scans (fun rest => ∃ d more, rest = d :: more ∧ d.isDigit) location ['-']
      [⟨.minus, .text "-", location⟩] := by
  refine .simple (.operator .minus ['-']) ?_ rfl rfl rfl
  rintro previous _ ⟨d, more, rfl, isDigit⟩
  have notArrow : '>' ≠ d := by
    rintro rfl
    cases isDigit
  have found : Lexeme.operator? ('-' :: d :: more) = some ("-", .minus) := by
    simp [Lexeme.operator?, Token.operators, List.isPrefixOf, notArrow]
  have other : Lexeme.isBlank '-' = false ∧ Literal.isQuote '-' = false ∧
      Lexeme.startsWord '-' = false := by decide
  simp [Lexeme.read, other, found]

/-! ## String literals -/

/-- How a literal between quotes `quote` writes the character `c`. -/
def spelling (quote c : Char) : List Char :=
  if c = '\n' then ['\\', 'n']
  else if c = '\\' ∨ c = quote then ['\\', c]
  else if quote = backquote ∧ (c = '\x7b' ∨ c = '\x7d') then [c, c]
  else [c]

/-- The item of a literal between quotes `quote` that stands for the character `c`. -/
def spelledItem (quote c : Char) : Item :=
  if c = '\n' then .escape 'n' c
  else if c = '\\' ∨ c = quote then .escape c c
  else if quote = backquote ∧ (c = '\x7b' ∨ c = '\x7d') then .brace c
  else .plain c

theorem slice_spelledItem (quote c : Char) : (spelledItem quote c).slice = spelling quote c := by
  unfold spelledItem spelling
  split
  · rfl
  split
  · rfl
  split <;> rfl

theorem unescape?_quote {quote : Char} (quotes : isQuote quote) :
    quote ≠ '\n' ∧ Literal.unescape? quote = some quote := by
  simp only [isQuote, Bool.or_eq_true, beq_iff_eq] at quotes
  rcases quotes with (rfl | rfl) | rfl <;> decide

/-- What is written for a character is read as the item that stands for it. -/
theorem stands_spelledItem {quote : Char} (quotes : isQuote quote) (c : Char) :
    (spelledItem quote c).Stands quote := by
  have other : '\\' ≠ quote := Literal.ne_of_isQuote quotes rfl
  unfold spelledItem
  split
  case isTrue newline => exact .escape other (by decide) (newline ▸ rfl)
  case isFalse inLine =>
    split
    case isTrue special =>
      refine .escape other inLine ?_
      rcases special with rfl | rfl
      · rfl
      · exact (unescape?_quote quotes).2
    case isFalse ordinary =>
      obtain ⟨unescaped, unquoted⟩ := not_or.mp ordinary
      split
      case isTrue brace => exact .brace brace.1 brace.2
      case isFalse unbraced => exact .plain inLine unquoted unescaped unbraced

theorem slices_spelled (quote : Char) (text : List Char) :
    slices (text.map (spelledItem quote)) = text.flatMap (spelling quote) := by
  simp [slices, List.flatMap_map, slice_spelledItem]

/-- Items that stand between quotes are one token. -/
theorem Scans.literal {quote : Char} (quotes : isQuote quote) {items : List Item}
    (stand : ∀ item ∈ items, item.Stands quote) {location : Location} {segments : List Segment}
    (found : scanItems (location.advance quote) items = .ok segments) :
    Scans (fun _ => True) location (quote :: (slices items ++ [quote]))
      [⟨.string, .segments segments, location⟩] := by
  refine .lexeme (.literal quote ⟨items, .closed⟩) (fun previous rest _ => ?_) rfl found rfl
  rw [Lexeme.read_quote quotes, List.append_assoc, List.singleton_append,
    Literal.read_quoted stand (unescape?_quote quotes).1]

theorem scanItems_spelledItem (location : Location) (quote c : Char) (rest : List Item) :
    scanItems location (spelledItem quote c :: rest) =
      (scanItems (location.advanceAll (spelling quote c)) rest).map (consText c) := by
  rw [← slice_spelledItem]
  unfold spelledItem
  split
  · rw [scanItems]
  split
  · rw [scanItems]
  split <;> rw [scanItems]

/-- The segments of items that stand for a text and of the items after them. -/
theorem scanItems_written (location : Location) (quote : Char) (text : List Char)
    (items : List Item) :
    scanItems location (text.map (spelledItem quote) ++ items) =
      (scanItems (location.advanceAll (text.flatMap (spelling quote))) items).map
        fun segments => text.foldr consText segments := by
  induction text generalizing location with
  | nil =>
      change scanItems location items = (scanItems location items).map id
      cases scanItems location items <;> rfl
  | cons c text ih =>
      rw [List.map_cons, List.cons_append, scanItems_spelledItem, ih, List.flatMap_cons,
        Location.advanceAll_append]
      cases scanItems _ items <;> rfl

/-- A text in front of segments none of which is a text next to it. -/
theorem foldr_consText {text : List Char} (filled : text ≠ []) {segments : List Segment}
    (apart : ∀ first, segments.head? ≠ some (.text first)) :
    text.foldr consText segments = .text (String.ofList text) :: segments := by
  induction text with
  | nil => exact absurd rfl filled
  | cons c text ih =>
      rw [List.foldr_cons]
      cases text with
      | nil =>
          rcases segments with _ | ⟨_ | _, rest⟩
          · rfl
          · exact absurd rfl (apart _)
          · rfl
      | cons d text =>
          rw [ih (List.cons_ne_nil d text), consText]
          simp

/-- The segments of a text without interpolations. -/
def textSegments (text : List Char) : List Segment :=
  if text = [] then [] else [.text (String.ofList text)]

theorem foldr_consText_nil (text : List Char) : text.foldr consText [] = textSegments text := by
  unfold textSegments
  split
  case isTrue empty => rw [empty, List.foldr_nil]
  case isFalse filled => exact foldr_consText filled (by simp)

/-- A text between single or double quotes, with the characters escaped that cannot stand there. -/
theorem scans_written {quote : Char} (quotes : isQuote quote) (text : List Char)
    (location : Location) :
    Scans (fun _ => True) location (quote :: (text.flatMap (spelling quote) ++ [quote]))
      [⟨.string, .segments (textSegments text), location⟩] := by
  have items := scanItems_written (location.advance quote) quote text []
  rw [List.append_nil, scanItems, Except.map, foldr_consText_nil] at items
  rw [← slices_spelled]
  exact .literal quotes (List.forall_mem_map.mpr fun c _ => stands_spelledItem quotes c) items

theorem escapedChar_eq (c : Char) : Value.escapedChar c = spelling '"' c := by
  have double : '"' ≠ backquote := by decide
  unfold Value.escapedChar spelling
  grind

/-- The displayed form of a text. -/
theorem scans_quoted (text : String) (location : Location) :
    Scans (fun _ => True) location (Value.quotedText text).toList
      [⟨.string, .segments (textSegments text.toList), location⟩] := by
  have chars : (Value.quotedText text).toList =
      '"' :: (text.toList.flatMap (spelling '"') ++ ['"']) := by
    simp [Value.quotedText, funext escapedChar_eq]
  rw [chars]
  exact scans_written rfl text.toList location

end Token

end Offside
