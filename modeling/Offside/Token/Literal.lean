import Offside.Text.Blank

/-!
# String literals as characters

A string literal stands between two equal quotes on one line. Its body is a list of items: plain
characters, escapes and, between backquotes, doubled braces and interpolations. A body that is not
well formed ends with a defect, and reading goes on after the next such quote or at the end of the
line. Every item and every ending spans a slice of the text, and the slices of a body are a prefix
of what was read.
-/

namespace Offside.Literal

/-- The quote of templates, the literals with interpolations. -/
def backquote : Char := '\x60'

/-- The characters that delimit string literals. -/
def isQuote (c : Char) : Bool :=
  c == '"' || c == '\'' || c == backquote

/-- What is wrong with a literal. -/
inductive Defect where
  | unterminatedString
  | unterminatedTemplate
  | unterminatedEscape
  | invalidEscape (c : Char)
  | loneClosingBrace
  | unterminatedInterpolation
  | emptyInterpolation
  deriving DecidableEq

namespace Defect

/-- The report of a defect. -/
def message : Defect → String
  | unterminatedString => "Unterminated string literal"
  | unterminatedTemplate => "Unterminated string template"
  | unterminatedEscape => "Unterminated escape sequence"
  | invalidEscape c => "Invalid escape sequence: \\" ++ String.singleton c
  | loneClosingBrace => "Single '\x7d' in string template"
  | unterminatedInterpolation => "Unterminated interpolation in string template"
  | emptyInterpolation => "Empty interpolation in string template"

/-- Whether a defect is reported at the opening quote; the others are reported where they stand. -/
def concernsWhole : Defect → Bool
  | unterminatedString | unterminatedTemplate => true
  | _ => false

/-- The defect of a literal without a closing quote. -/
def unterminated (quote : Char) : Defect :=
  if quote = backquote then unterminatedTemplate else unterminatedString

end Defect

/-- The character that an escape with `c` stands for. -/
def unescape? (c : Char) : Option Char :=
  if c = 'n' then some '\n'
  else if c = 't' then some '\t'
  else if c = 'r' then some '\r'
  else if c = '0' then some '\x00'
  else if c ∈ ['\\', '\'', '"', backquote, '\x7b', '\x7d'] then some c
  else none

/-- An element of a literal's body. -/
inductive Item where
  /-- A character that stands for itself. -/
  | plain (c : Char)
  /-- A backslash and `c`, which stand for the character `denoted`. -/
  | escape (c denoted : Char)
  /-- A brace, written twice. -/
  | brace (c : Char)
  /-- The source of an expression between braces. -/
  | interpolation (source : List Char)
  deriving DecidableEq

/-- The characters that an item spans. -/
def Item.slice : Item → List Char
  | .plain c => [c]
  | .escape c _ => ['\\', c]
  | .brace c => [c, c]
  | .interpolation source => '\x7b' :: (source ++ ['\x7d'])

/-- How the body of a literal ends. -/
inductive Ending where
  /-- At the closing quote. -/
  | closed
  /-- With a defect, after which the characters `skipped` are passed over. -/
  | broken (defect : Defect) (skipped : List Char)
  deriving DecidableEq

/-- The body of a literal, from the opening quote on. -/
structure Body where
  /-- The well-formed items at the start. -/
  items : List Item
  /-- What comes after them. -/
  ending : Ending
  deriving DecidableEq

/-- The body with one more item at its start. -/
def Body.cons (item : Item) (body : Body) : Body := { body with items := item :: body.items }

/-- The characters that the items of a body span. -/
def slices (items : List Item) : List Char := items.flatMap Item.slice

/-- The characters that the ending of a body between quotes `quote` spans. -/
def Ending.slice (quote : Char) : Ending → List Char
  | .closed => [quote]
  | .broken _ skipped => skipped

/-- The characters that a body between quotes `quote` spans. -/
def Body.slice (quote : Char) (body : Body) : List Char :=
  slices body.items ++ body.ending.slice quote

/-- What is passed over after a defect: all up to the next quote or to the end of the line. -/
def recovery (quote : Char) : List Char → List Char
  | [] => []
  | c :: rest =>
    if c = '\n' then [] else if c = quote then [c] else c :: recovery quote rest

/-- The source of an interpolation, and whether its closing brace was found.  `depth` counts the
braces opened inside the source, and `quote` is the literal of the source that is being read: in it
braces do not count, and a backslash shields the next character. -/
def interpolation (depth : Nat) (quote : Option Char) : List Char → List Char × Bool
  | [] => ([], false)
  | c :: rest =>
    if c = '\n' then ([], false)
    else
      match quote with
      | some q =>
        if c = '\\' then
          match rest with
          | [] => ([c], false)
          | d :: after =>
            let (source, closed) := interpolation depth quote after
            (c :: d :: source, closed)
        else
          let (source, closed) := interpolation depth (if c = q then none else quote) rest
          (c :: source, closed)
      | none =>
        if c = '\x7d' ∧ depth = 0 then ([], true)
        else
          let depth :=
            if c = '\x7b' then depth + 1 else if c = '\x7d' then depth - 1 else depth
          let (source, closed) := interpolation depth (if isQuote c then some c else none) rest
          (c :: source, closed)

/-- Read the body of a literal from the character after its opening quote. -/
def read (quote : Char) (chars : List Char) : Body :=
  match chars with
  | [] => ⟨[], .broken (.unterminated quote) []⟩
  | c :: rest =>
    if c = '\n' then ⟨[], .broken (.unterminated quote) []⟩
    else if c = quote then ⟨[], .closed⟩
    else if c = '\\' then
      match rest with
      | [] => ⟨[], .broken .unterminatedEscape [c]⟩
      | d :: after =>
        if d = '\n' then ⟨[], .broken .unterminatedEscape [c]⟩
        else
          match unescape? d with
          | some denoted => (read quote after).cons (.escape d denoted)
          | none => ⟨[], .broken (.invalidEscape d) (c :: recovery quote (d :: after))⟩
    else if quote = backquote && (c = '\x7b' || c = '\x7d') then
      if rest.head? = some c then (read quote rest.tail).cons (.brace c)
      else if c = '\x7d' then ⟨[], .broken .loneClosingBrace (recovery quote (c :: rest))⟩
      else
        let (source, closed) := interpolation 0 none rest
        let after := rest.drop (source.length + 1)
        if !closed then ⟨[], .broken .unterminatedInterpolation (c :: source)⟩
        else if Text.isBlank source then
          ⟨[], .broken .emptyInterpolation (c :: (source ++ '\x7d' :: recovery quote after))⟩
        else (read quote after).cons (.interpolation source)
    else (read quote rest).cons (.plain c)
termination_by chars.length

@[simp]
theorem slices_nil : slices [] = [] := rfl

@[simp]
theorem slices_cons (item : Item) (items : List Item) :
    slices (item :: items) = item.slice ++ slices items := rfl

/-- The text `chars` starts with `slice`, which ends with a quote or where the line ends. -/
def Closes (quote : Char) (slice chars : List Char) : Prop :=
  ∃ after, chars = slice ++ after ∧
    (slice.getLast? = some quote ∨ ∀ c ∈ after.head?, c = '\n')

namespace Closes

theorem atLineEnd {quote : Char} {slice after : List Char} (ends : ∀ c ∈ after.head?, c = '\n') :
    Closes quote slice (slice ++ after) :=
  ⟨after, rfl, .inr ends⟩

theorem append {quote : Char} {slice chars : List Char} (closes : Closes quote slice chars)
    (front : List Char) : Closes quote (front ++ slice) (front ++ chars) := by
  obtain ⟨after, split, ends⟩ := closes
  refine ⟨after, by rw [split, List.append_assoc], ends.imp_left fun last => ?_⟩
  rw [List.getLast?_append, last]
  rfl

end Closes

theorem closes_recovery (quote : Char) (chars : List Char) :
    Closes quote (recovery quote chars) chars := by
  induction chars with
  | nil => exact .atLineEnd (by simp)
  | cons c rest ih =>
    simp only [recovery]
    split
    case isTrue newline => exact .atLineEnd (by simpa using newline)
    case isFalse =>
      split
      case isTrue isQuote => exact ⟨rest, rfl, .inl (congrArg some isQuote)⟩
      case isFalse => exact ih.append [c]

/-- The source of an interpolation is a prefix of what was read. What follows it is a closing brace
if one was found, and else the end of the line. -/
theorem exists_after_interpolation (depth : Nat) (quote : Option Char) (chars : List Char) :
    ∃ after, chars = (interpolation depth quote chars).1 ++ after ∧
      if (interpolation depth quote chars).2 then after.head? = some '\x7d'
      else ∀ c ∈ after.head?, c = '\n' := by
  match chars with
  | [] => exact ⟨[], by simp [interpolation]⟩
  | c :: rest =>
    rw [interpolation.eq_def]
    dsimp only
    split
    case isTrue newline => exact ⟨c :: rest, by simp [newline]⟩
    case isFalse =>
      split
      · split
        · match rest with
          | [] => exact ⟨[], by simp⟩
          | d :: after => simpa using exists_after_interpolation depth _ after
        · simpa using exists_after_interpolation depth _ rest
      · split
        case isTrue closes => exact ⟨c :: rest, by simp [closes.1]⟩
        case isFalse => simpa using exists_after_interpolation _ _ rest
termination_by chars.length

/-- An interpolation whose closing brace was found is followed by that brace. -/
theorem eq_append_of_interpolation {chars source : List Char}
    (h : interpolation 0 none chars = (source, true)) :
    chars = source ++ '\x7d' :: chars.drop (source.length + 1) := by
  obtain ⟨after, split, brace⟩ := exists_after_interpolation 0 none chars
  rw [h] at split brace
  obtain ⟨later, rfl⟩ := List.head?_eq_some_iff.1 brace
  rw [split]
  simp

@[simp]
theorem slice_cons (quote : Char) (item : Item) (body : Body) :
    (body.cons item).slice quote = item.slice ++ body.slice quote := by
  simp [Body.slice, Body.cons, slices]

/-- The slices of a body are a prefix of what was read, which ends with the quote or where the line
ends. -/
theorem closes_read (quote : Char) (chars : List Char) :
    Closes quote ((read quote chars).slice quote) chars := by
  fun_induction read quote chars with
  | case1 | case2 | case4 | case5 => exact .atLineEnd (by simp)
  | case3 rest => exact ⟨rest, rfl, .inl rfl⟩
  | case6 c _ _ _ _ _ _ ih =>
    rw [slice_cons]
    exact ih.append ['\\', c]
  | case7 c after => exact (closes_recovery quote (c :: after)).append ['\\']
  | case8 c rest _ _ _ _ h ih =>
    obtain ⟨after, rfl⟩ : ∃ after, rest = c :: after := by
      cases rest <;> simp_all
    rw [slice_cons]
    exact ih.append [c, c]
  | case9 => exact closes_recovery quote _
  | case10 c rest _ _ _ _ _ _ source closed h unclosed =>
    obtain rfl : closed = false := by simpa using unclosed
    obtain ⟨after, split, ends⟩ := exists_after_interpolation 0 none rest
    rw [h] at split ends
    exact ⟨after, congrArg (c :: ·) split, .inr ends⟩
  | case11 c rest _ _ _ _ _ _ source closed h after found =>
    obtain rfl : closed = true := by simpa using found
    rw [eq_append_of_interpolation h]
    simpa [Body.slice, Ending.slice, after] using
      (closes_recovery quote after).append (c :: (source ++ ['\x7d']))
  | case12 c rest _ _ _ _ _ _ source closed h after found _ ih =>
    obtain rfl : closed = true := by simpa using found
    obtain rfl : c = '\x7b' := by simp_all
    rw [slice_cons, eq_append_of_interpolation h]
    simpa [Item.slice, after] using ih.append (Item.interpolation source).slice
  | case13 c _ _ _ _ _ ih =>
    rw [slice_cons]
    exact ih.append [c]

theorem read_isPrefix (quote : Char) (chars : List Char) :
    (read quote chars).slice quote <+: chars := by
  obtain ⟨after, split, -⟩ := closes_read quote chars
  exact ⟨after, split.symm⟩

end Offside.Literal
