import Offside.Proofs.Location
import Offside.Proofs.Token.Concatenation
import Mathlib.Data.List.TakeWhile

/-!
# How tokens cover a text

Every token of a text stands for a slice of it, and the slices follow each other in the order of the
tokens. What lies between them is blank or a comment. Scanning gives an answer for every text in
which no integer literal has too many digits.
-/

namespace Offside

open Layout (exists_of_bind_eq_ok)
open Literal (Item isQuote slices)

/-! ## Spellings -/

namespace Token

/-- The spelling of a kind that has a single one. -/
def Kind.spelling? (kind : Kind) : Option String :=
  match kind with
  | .newline => some "\n"
  | .bang => some "!"
  | kind => ((keywords ++ operators).find? (·.2 = kind)).map (·.1)

/-- A token stands for a slice of a text. -/
structure Spelled (token : Token) (slice : List Char) : Prop where
  /-- A keyword, an operator, a punctuation mark or a line break is spelled as its kind is. -/
  fixed : ∀ text, token.kind.spelling? = some text →
    slice = text.toList ∧ token.payload = token.kind.payload text
  /-- A name is spelled as it says. -/
  name : token.kind = .identifier → token.payload = .text (String.ofList slice)
  /-- An integer is written with the digits of its value and underscores. -/
  integer : token.kind = .integer → (∀ c ∈ slice, c.isDigit ∨ c = '_') ∧
    token.payload = .integer (Lexeme.natOfDigits (slice.filter (· ≠ '_')))
  /-- A string literal stands between two equal quotes. -/
  string : token.kind = .string → ∃ quote body, isQuote quote ∧ slice = quote :: (body ++ [quote])

/-- A token of a kind with a single spelling. -/
theorem spelled_of_spelling {token : Token} {slice : List Char}
    (spelling : token.kind.spelling? = some (String.ofList slice))
    (payload : token.payload = token.kind.payload (String.ofList slice)) : token.Spelled slice := by
  have free : ∀ kind ∈ [Kind.identifier, .integer, .string], kind.spelling? = none := by decide
  have other (kind : Kind) (member : kind ∈ [Kind.identifier, .integer, .string])
      (same : token.kind = kind) : False := by
    rw [same, free kind member] at spelling
    cases spelling
  refine ⟨fun text' spelling' => ?_, fun isName => (other _ (by simp) isName).elim,
    fun isInteger => (other _ (by simp) isInteger).elim,
    fun isString => (other _ (by simp) isString).elim⟩
  obtain rfl := Option.some.inj (spelling.symm.trans spelling')
  exact ⟨String.toList_ofList.symm, payload⟩

/-- A token of a kind with several spellings. -/
theorem spelled_of_free {kind : Kind} (free : kind.spelling? = none) {payload : Payload}
    {location : Location} {slice : List Char}
    (name : kind = .identifier → payload = .text (String.ofList slice))
    (integer : kind = .integer → (∀ c ∈ slice, c.isDigit ∨ c = '_') ∧
      payload = .integer (Lexeme.natOfDigits (slice.filter (· ≠ '_'))))
    (string : kind = .string → ∃ quote body, isQuote quote ∧ slice = quote :: (body ++ [quote])) :
    Spelled ⟨kind, payload, location⟩ slice := by
  refine ⟨fun text spelling => ?_, name, integer, string⟩
  cases free.symm.trans spelling

/-- A token is placed in the slice that starts at `offset`, and at its start if it is valid. -/
structure Marks (token : Token) (offset : Nat) (slice : List Char) : Prop where
  start : token.kind ≠ .invalid → token.location.offset = offset
  lower : offset ≤ token.location.offset
  upper : token.location.offset < offset + slice.length

end Token

/-! ## Tilings -/

/-- Blanks and comments before the text `rest`, where a comment reaches to the end of its line. -/
inductive Gap (rest : List Char) : List Char → Prop where
  | nil : Gap rest []
  | blank {c : Char} {chars : List Char} : c = ' ' ∨ c = '\t' ∨ c = '\r' ∨ c = '\x0c' →
      Gap rest chars → Gap rest (c :: chars)
  | comment {text chars : List Char} : '\n' ∉ text → (∀ c ∈ (chars ++ rest).head?, c = '\n') →
      Gap rest chars → Gap rest ('#' :: (text ++ chars))

/-- The text after the first `offset` characters of a source is covered by slices of tokens, in
their order, and gaps between them. -/
inductive Tiled : (offset : Nat) → List Char → List Token → Prop where
  | done {offset : Nat} {gap : List Char} : Gap [] gap → Tiled offset gap []
  | tile {offset : Nat} {gap slice rest : List Char} {token : Token} {tokens : List Token} :
      Gap (slice ++ rest) gap → slice ≠ [] → token.Spelled slice →
      token.Marks (offset + gap.length) slice →
      Tiled (offset + gap.length + slice.length) rest tokens →
      Tiled offset (gap ++ (slice ++ rest)) (token :: tokens)

namespace Tiled

variable {offset : Nat} {rest : List Char} {tokens : List Token}

/-- A text with a longer gap at its start. -/
theorem skip {more : List Char} (widen : ∀ {gap rest'}, rest = gap ++ rest' → Gap rest' gap →
      Gap rest' (more ++ gap))
    (tiled : Tiled (offset + more.length) rest tokens) : Tiled offset (more ++ rest) tokens := by
  cases tiled with
  | done gap => exact .done (widen (List.append_nil _).symm gap)
  | @tile _ gap slice rest token tokens blank nonempty spelled marks later =>
      rw [← List.append_assoc]
      have length : offset + more.length + gap.length = offset + (more ++ gap).length := by
        rw [List.length_append, Nat.add_assoc]
      rw [length] at marks later
      exact .tile (widen rfl blank) nonempty spelled marks later

/-- A text with one more token at its start. -/
theorem cons {slice : List Char} {token : Token} (nonempty : slice ≠ [])
    (spelled : token.Spelled slice) (marks : token.Marks offset slice)
    (tiled : Tiled (offset + slice.length) rest tokens) :
    Tiled offset (slice ++ rest) (token :: tokens) := by
  rw [← List.nil_append (slice ++ rest)]
  exact .tile .nil nonempty spelled marks tiled

end Tiled

/-! ## Lexemes -/

namespace Literal

/-- A defect that is not reported at the opening quote is reported at the first character that is
passed over, a backslash or a brace. -/
theorem exists_of_skipped {quote : Char} {chars skipped : List Char} {defect : Defect}
    (ends : (read quote chars).ending = .broken defect skipped)
    (inside : defect.concernsWhole = false) :
    ∃ c later, skipped = c :: later ∧ (c = '\\' ∨ c = '\x7b' ∨ c = '\x7d') := by
  have unterminated : (Defect.unterminated quote).concernsWhole = true := by
    unfold Defect.unterminated
    split <;> rfl
  obtain ⟨rest, -, -, stands⟩ := stands_read quote chars
  rw [ends] at stands
  cases stands with
  | unterminated =>
      rw [unterminated] at inside
      cases inside
  | unterminatedEscape | invalidEscape => exact ⟨_, _, rfl, .inl rfl⟩
  | loneClosingBrace => exact ⟨_, _, rfl, .inr (.inr rfl)⟩
  | unterminatedInterpolation | emptyInterpolation => exact ⟨_, _, rfl, .inr (.inl rfl)⟩

end Literal

namespace Lexeme

open Token (Kind Spelled Marks)

variable {previous : Option Char} {c : Char} {rest : List Char}

/-- The token of a lexeme stands at the start of its slice or, if it is invalid, at a backslash or a
brace. -/
theorem exists_place {location : Location} {segments : List Segment} {token : Token}
    (found : (read previous c rest).token? location segments = .ok (some token)) :
    ∃ inner d later, (read previous c rest).slice = inner ++ d :: later ∧
      token.location = location.advanceAll inner ∧
      (inner = [] ∨ token.kind = .invalid ∧ (d = '\\' ∨ d = '\x7b' ∨ d = '\x7d')) := by
  have nonempty := read_slice_ne_nil previous c rest
  have yields := yields_of_token? found
  generalize lexeme : read previous c rest = other at yields nonempty ⊢
  obtain ⟨d, later, slice⟩ := List.exists_cons_of_ne_nil nonempty
  cases yields with
  | broken quote items defect skipped =>
      dsimp only
      split
      case isTrue => exact ⟨[], d, later, slice, rfl, .inl rfl⟩
      case isFalse inside =>
        have body := (congrArg (·.ending) (read_literal lexeme).2).symm
        obtain ⟨d, later, rfl, symbol⟩ :=
          Literal.exists_of_skipped body (Bool.eq_false_iff.mpr inside)
        exact ⟨quote :: slices items, d, later, rfl, rfl, .inr ⟨rfl, symbol⟩⟩
  | _ => exact ⟨[], d, later, slice, rfl, .inl rfl⟩

theorem marks_token? {location : Location} {segments : List Segment} {token : Token}
    (found : (read previous c rest).token? location segments = .ok (some token)) :
    token.Marks location.offset (read previous c rest).slice := by
  obtain ⟨inner, d, later, slice, place, atStart⟩ := exists_place found
  have offset : token.location.offset = location.offset + inner.length := by
    rw [place, Location.advanceAll_offset]
  rw [slice]
  refine ⟨fun valid => ?_, by omega, by simp [offset]⟩
  rcases atStart with rfl | ⟨invalid, -⟩
  · exact offset
  · exact absurd invalid valid

/-- The token of a lexeme stands for the slice of the lexeme. -/
theorem spelled_token? {location : Location} {segments : List Segment} {token : Token}
    (found : (read previous c rest).token? location segments = .ok (some token)) :
    token.Spelled (read previous c rest).slice ∧
      token.Marks location.offset (read previous c rest).slice := by
  have operators : ∀ entry ∈ ("!", .bang) :: Token.operators,
      entry.2.spelling? = some entry.1 ∧ entry.2 ≠ .trueWord ∧ entry.2 ≠ .falseWord := by
    decide
  have keywords : ∀ entry ∈ Token.keywords, entry.2.spelling? = some entry.1 := by decide
  refine ⟨?_, marks_token? found⟩
  have yields := yields_of_token? found
  generalize lexeme : read previous c rest = other at yields ⊢
  cases yields with
  | newline => exact Token.spelled_of_spelling rfl rfl
  | operator kind text =>
      obtain ⟨spelling, other, other'⟩ := operators _ (read_operator lexeme)
      exact Token.spelled_of_spelling spelling (Kind.payload_eq_text other other' _).symm
  | keyword member => exact Token.spelled_of_spelling (keywords _ member) rfl
  | name => exact Token.spelled_of_free (by decide) (fun _ => rfl) (by simp) (by simp)
  | integer =>
      have numerals : ∀ d ∈ _, d.isDigit ∨ d = '_' := fun d member => by
        simpa [isNumeral] using (read_number lexeme).1.2 d member
      exact Token.spelled_of_free (by decide) (by simp) (fun _ => ⟨numerals, rfl⟩) (by simp)
  | string quote items =>
      exact Token.spelled_of_free (by decide) (by simp) (by simp) fun _ =>
        ⟨quote, slices items, (read_literal lexeme).1, rfl⟩
  | float | stray | broken => exact Token.spelled_of_free (by decide) (by simp) (by simp) (by simp)

/-- A comment ends where its line ends. -/
theorem head?_after_comment {text after : List Char} (found : read previous c rest = .comment text)
    (split : c :: rest = '#' :: (text ++ after)) : ∀ d ∈ after.head?, d = '\n' := by
  have text_eq := read_comment found
  have after_eq : after = rest.dropWhile (· ≠ '\n') := by
    have whole := List.takeWhile_append_dropWhile (p := (· ≠ '\n')) (l := rest)
    rw [← text_eq] at whole
    exact (List.append_cancel_left (whole.trans (List.cons.inj split).2)).symm
  intro d head
  rw [after_eq] at head
  have stops := List.head?_dropWhile_not (· ≠ '\n') rest
  rw [Option.mem_def.mp head] at stops
  simpa using stops

/-- A lexeme without a token is a blank or a comment and widens the gap after it. -/
theorem gap_of_token?_eq_none {location : Location} {segments : List Segment}
    (found : (read previous c rest).token? location segments = .ok none) {gap rest' : List Char}
    (split : c :: rest = (read previous c rest).slice ++ (gap ++ rest')) (blank : Gap rest' gap) :
    Gap rest' ((read previous c rest).slice ++ gap) := by
  cases lexeme : read previous c rest with
  | blank d =>
      cases reads lexeme with
      | blank isBlank => exact .blank (isBlank_iff.mp isBlank) blank
  | comment text =>
      rw [lexeme] at split
      refine .comment ?_ (head?_after_comment lexeme split) blank
      rw [read_comment lexeme]
      exact fun member => by simpa using List.mem_takeWhile_imp member
  | number whole fraction =>
      rw [lexeme, token?] at found
      cases number : numberToken whole fraction location <;> rw [number] at found <;> cases found
  | _ =>
      rw [lexeme] at found
      cases found

end Lexeme

/-! ## Texts -/

namespace Token

/-- The segments of a literal's items are found item by item: an interpolation is scanned, and the
other items stand for a character of the text before what follows. -/
theorem exists_of_scanItems_cons {location : Location} {item : Item} {rest : List Item}
    {segments : List Segment} (found : scanItems location (item :: rest) = .ok segments) :
    ∃ later, scanItems (location.advanceAll item.slice) rest = .ok later ∧
      ((∃ source tokens, item = .interpolation source ∧
          scanFrom none (location.advance '\x7b') source = .ok tokens ∧
          segments = .expression tokens (String.ofList source) :: later) ∨
        ((∀ source, item ≠ .interpolation source) ∧ ∃ c, segments = consText c later)) := by
  have ofMap {c : Char} {outcome : Except Overflow (List Segment)}
      (found : outcome.map (consText c) = .ok segments) :
      ∃ later, outcome = .ok later ∧ segments = consText c later := by
    cases outcome with
    | error overflow => cases found
    | ok later => exact ⟨later, rfl, (Except.ok.inj found).symm⟩
  cases item with
  | interpolation source =>
      rw [scanItems] at found
      obtain ⟨tokens, tokensFound, found⟩ := exists_of_bind_eq_ok found
      obtain ⟨later, laterFound, found⟩ := exists_of_bind_eq_ok found
      exact ⟨later, laterFound, .inl ⟨source, tokens, rfl, tokensFound, (Except.ok.inj found).symm⟩⟩
  | plain c | escape _ c | brace c =>
      rw [scanItems] at found
      obtain ⟨later, laterFound, same⟩ := ofMap found
      exact ⟨later, laterFound, .inr ⟨by simp, c, same⟩⟩

/-- The tokens of a text cover it. -/
theorem tiled_scanFrom {previous : Option Char} {location : Location} {chars : List Char}
    {tokens : List Token} (found : scanFrom previous location chars = .ok tokens) :
    ∃ before, tokens = before ++ [inserted .endOfFile (location.advanceAll chars)] ∧
      Tiled location.offset chars before := by
  replace found := scanning_of_scanFrom found
  induction found with
  | done => exact ⟨[], rfl, .done .nil⟩
  | @lexeme previous location c rest after _ token? _ split _ tokenFound _ ih =>
      obtain ⟨before, rfl, tiled⟩ := ih
      refine ⟨token?.toList ++ before, ?_, ?_⟩
      · rw [split, Location.advanceAll_append, List.append_assoc]
      rw [Location.advanceAll_offset] at tiled
      cases token? with
      | none =>
          rw [split]
          refine .skip (fun same blank => ?_) tiled
          rw [same] at split
          exact Lexeme.gap_of_token?_eq_none tokenFound split blank
      | some token =>
          obtain ⟨spelled, marks⟩ := Lexeme.spelled_token? tokenFound
          rw [split]
          exact .cons (Lexeme.read_slice_ne_nil previous c rest) spelled marks tiled

/-! ## Integer literals -/

/-- A text after the character `previous` has an integer literal, maybe one in an interpolation,
that is written with the digits and underscores `numerals`. -/
inductive HasInteger (numerals : List Char) : (previous : Option Char) → List Char → Prop where
  | here {previous : Option Char} {c : Char} {rest : List Char} :
      Lexeme.read previous c rest = .number numerals none → HasInteger numerals previous (c :: rest)
  | later {previous : Option Char} {c : Char} {rest after : List Char} :
      c :: rest = (Lexeme.read previous c rest).slice ++ after →
      HasInteger numerals (Lexeme.read previous c rest).slice.getLast? after →
      HasInteger numerals previous (c :: rest)
  | inside {previous : Option Char} {c : Char} {rest source : List Char} :
      .interpolation source ∈ (Lexeme.read previous c rest).items →
      HasInteger numerals none source → HasInteger numerals previous (c :: rest)

/-- No integer literal of a text has too many digits. -/
def InBounds (previous : Option Char) (chars : List Char) : Prop :=
  ∀ numerals, HasInteger numerals previous chars →
    (numerals.filter (· ≠ '_')).length ≤ Overflow.digitLimit

theorem exists_numberToken {whole : List Char} {fraction : Option (List Char)} (location : Location)
    (short : fraction = none → (whole.filter (· ≠ '_')).length ≤ Overflow.digitLimit) :
    ∃ token, Lexeme.numberToken whole fraction location = .ok token := by
  cases fraction with
  | none =>
      exact ⟨_, if_neg (Nat.not_lt.mpr (short rfl))⟩
  | some fraction => exact ⟨_, rfl⟩

/-- A lexeme has a token, or none, unless it is an integer literal with too many digits. -/
theorem exists_token? {previous : Option Char} {c : Char} {rest : List Char}
    (short : InBounds previous (c :: rest)) (location : Location) (segments : List Segment) :
    ∃ token?, (Lexeme.read previous c rest).token? location segments = .ok token? := by
  cases lexeme : Lexeme.read previous c rest with
  | number whole fraction =>
      have short' (integer : fraction = none) :
          (whole.filter (· ≠ '_')).length ≤ Overflow.digitLimit :=
        short whole (.here (by rw [lexeme, integer]))
      obtain ⟨token, found⟩ := exists_numberToken location short'
      exact ⟨some token, by rw [Lexeme.token?, found]; rfl⟩
  | _ => exact ⟨_, rfl⟩

theorem exists_map_consText {outcome : Except Overflow (List Segment)}
    (answers : ∃ segments, outcome = .ok segments) (c : Char) :
    ∃ segments, outcome.map (consText c) = .ok segments := by
  obtain ⟨segments, rfl⟩ := answers
  exact ⟨_, rfl⟩

/-- Scanning answers every text without integer literals that are too long. -/
theorem exists_scanFrom_of_inBounds {previous : Option Char} {chars : List Char}
    (short : InBounds previous chars) (location : Location) :
    ∃ tokens, scanFrom previous location chars = .ok tokens := by
  revert short
  refine scanFrom.induct
    (fun previous location chars => InBounds previous chars →
      ∃ tokens, scanFrom previous location chars = .ok tokens)
    (fun location items => (∀ source, .interpolation source ∈ items → InBounds none source) →
      ∃ segments, scanItems location items = .ok segments)
    ?_ ?_ ?_ ?_ ?_ ?_ ?_ previous location chars
  · intro previous location _
    exact ⟨_, by rw [scanFrom]⟩
  · intro previous location c rest lexeme items later short
    obtain ⟨after, split, -⟩ := exists_after previous c rest
    obtain ⟨segments, itemsFound⟩ := items fun source member numerals has =>
      short numerals (.inside member has)
    obtain ⟨token?, tokenFound⟩ := exists_token? short location segments
    have drop : (c :: rest).drop lexeme.slice.length = after := by
      rw [split, List.drop_left]
    rw [drop] at later
    obtain ⟨tokens, laterFound⟩ := later fun numerals has => short numerals (.later split has)
    exact ⟨_, (scanFrom_cons_eq_ok split).mpr
      ⟨segments, token?, tokens, itemsFound, tokenFound, laterFound, rfl⟩⟩
  · intro location _
    exact ⟨_, by rw [scanItems]⟩
  · intro location source rest first later short
    obtain ⟨tokens, firstFound⟩ := first (short source List.mem_cons_self)
    obtain ⟨segments, laterFound⟩ := later fun source member =>
      short source (List.mem_cons_of_mem _ member)
    refine ⟨.expression tokens (String.ofList source) :: segments, ?_⟩
    rw [scanItems, firstFound, laterFound]
    rfl
  -- The other items are characters of the text before the next interpolation.
  · intro location c rest later short
    rw [scanItems]
    exact exists_map_consText (later fun source member =>
      short source (List.mem_cons_of_mem _ member)) c
  · intro location c denoted rest later short
    rw [scanItems]
    exact exists_map_consText (later fun source member =>
      short source (List.mem_cons_of_mem _ member)) denoted
  · intro location c rest later short
    rw [scanItems]
    exact exists_map_consText (later fun source member =>
      short source (List.mem_cons_of_mem _ member)) c

theorem mem_consText {inner : List Token} {text : String} {segments : List Segment} (c : Char)
    (member : .expression inner text ∈ segments) :
    .expression inner text ∈ consText c segments := by
  cases segments with
  | nil => cases member
  | cons segment rest => cases segment <;> simpa [consText] using member

/-- The source of an interpolation is scanned, and its tokens are those of a segment. -/
theorem exists_expression_of_mem {location : Location} {items : List Item}
    {segments : List Segment} (found : scanItems location items = .ok segments)
    {source : List Char} (member : .interpolation source ∈ items) :
    ∃ place inner, scanFrom none place source = .ok inner ∧
      .expression inner (String.ofList source) ∈ segments := by
  induction items generalizing location segments with
  | nil => cases member
  | cons item rest ih =>
      obtain ⟨later, laterFound, here⟩ := exists_of_scanItems_cons found
      rcases List.mem_cons.mp member with rfl | member
      · rcases here with ⟨source, tokens, ⟨⟩, tokensFound, rfl⟩ | ⟨other, -⟩
        · exact ⟨_, tokens, tokensFound, List.mem_cons_self⟩
        · exact absurd rfl (other source)
      · obtain ⟨place, inner, innerFound, part⟩ := ih laterFound member
        refine ⟨place, inner, innerFound, ?_⟩
        rcases here with ⟨source', tokens, -, -, rfl⟩ | ⟨-, c, rfl⟩
        · exact List.mem_cons_of_mem _ part
        · exact mem_consText c part

theorem length_le_of_numberToken {whole : List Char} {location : Location} {token : Token}
    (found : Lexeme.numberToken whole none location = .ok token) :
    (whole.filter (· ≠ '_')).length ≤ Overflow.digitLimit := by
  by_contra long
  rw [Lexeme.numberToken] at found
  cases (if_pos (Nat.not_le.mp long)).symm.trans found

/-- Scanning refuses a text with an integer literal that is too long. -/
theorem inBounds_of_scanFrom {previous : Option Char} {location : Location} {chars : List Char}
    {tokens : List Token} (found : scanFrom previous location chars = .ok tokens) :
    InBounds previous chars := by
  intro numerals has
  induction has generalizing location tokens with
  | @here previous c rest lexeme =>
      obtain ⟨after, split, -⟩ := exists_after previous c rest
      obtain ⟨segments, token?, -, -, tokenFound, -⟩ := (scanFrom_cons_eq_ok split).mp found
      rw [lexeme, Lexeme.token?] at tokenFound
      cases number : Lexeme.numberToken numerals none location with
      | error overflow =>
          rw [number] at tokenFound
          cases tokenFound
      | ok token => exact length_le_of_numberToken number
  | later split _ ih =>
      obtain ⟨-, -, tokens, -, -, laterFound, -⟩ := (scanFrom_cons_eq_ok split).mp found
      exact ih laterFound
  | @inside previous c rest source member _ ih =>
      obtain ⟨after, split, -⟩ := exists_after previous c rest
      obtain ⟨segments, -, -, itemsFound, -⟩ := (scanFrom_cons_eq_ok split).mp found
      obtain ⟨location, tokens, inner, -⟩ := exists_expression_of_mem itemsFound member
      exact ih inner

/-- Scanning answers every text without integer literals that are too long. Its tokens cover the
text in order, each with a slice of its own, and at the end of the text stands the one end of
file. -/
theorem scan_tiled {source : String} (short : InBounds none source.toList) (file : Option String) :
    ∃ tokens endOfFile, scan source file = .ok (tokens ++ [endOfFile]) ∧
      endOfFile.kind = .endOfFile ∧ endOfFile.location.offset = source.length ∧
      (∀ token ∈ tokens, token.kind ≠ .endOfFile) ∧ Tiled 0 source.toList tokens := by
  obtain ⟨all, found⟩ := exists_scanFrom_of_inBounds short (.start file)
  obtain ⟨tokens, rfl, raw, -⟩ := exists_scanFrom found
  obtain ⟨tokens', split, tiled⟩ := tiled_scanFrom found
  obtain rfl : tokens = tokens' := List.append_cancel_right split
  refine ⟨tokens, _, found, rfl, ?_, fun token member isEnd => ?_, tiled⟩
  · rw [inserted, Location.advanceAll_offset, String.length_toList]
    exact Nat.zero_add _
  · have := raw token member
    simp [Lexeme.isRaw, isEnd] at this

/-- A broken literal with an interpolation, and text after it on its line. -/
theorem scan_tiled_brokenLiteral :
    let source := "x\t:= \x60\x7b1_0\x7d\\q\x60 # 1\n"
    InBounds none source.toList ∧ ∃ tokens endOfFile,
      scan source none = .ok (tokens ++ [endOfFile]) ∧ endOfFile.kind = .endOfFile ∧
      endOfFile.location.offset = source.length ∧
      (∀ token ∈ tokens, token.kind ≠ .endOfFile) ∧ Tiled 0 source.toList tokens := by
  intro source
  have answers : (scan source none).isOk := by decide +kernel
  have short : InBounds none source.toList := by
    cases found : scan source none with
    | error overflow =>
        rw [found] at answers
        cases answers
    | ok tokens => exact inBounds_of_scanFrom found
  exact ⟨short, scan_tiled short none⟩

end Token

end Offside
