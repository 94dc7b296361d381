import Offside.Proofs.Token.Places
import Offside.Proofs.Token.Relocation

/-!
# Call markers

An exclamation mark is a call marker if it is attached to what it calls, and a negation elsewhere.
What it is attached to is told by the character before it alone. That of a name or a closing bracket
makes a call marker, but so does that of a reserved word, of a number, or of an alphanumeric
character that starts no lexeme. In every other place the character before the mark and the token
before it agree that nothing is called.
-/

namespace Offside

open Literal (Item isQuote slices)

/-! ## Where literals and gaps end -/

/-- A gap ends with a blank or where the line ends. -/
theorem Gap.ends {rest gap : List Char} (blank : Gap rest gap) (filled : gap ≠ []) :
    (∃ front c, gap = front ++ [c] ∧ Lexeme.isBlank c) ∨ ∀ c ∈ rest.head?, c = '\n' := by
  induction blank with
  | nil => exact absurd rfl filled
  | @blank c chars isBlank _ ih =>
      by_cases last : chars = []
      · exact .inl ⟨[], c, by rw [last]; rfl, Lexeme.isBlank_iff.mpr isBlank⟩
      · refine (ih last).imp_left ?_
        rintro ⟨front, d, rfl, isBlank⟩
        exact ⟨c :: front, d, rfl, isBlank⟩
  | @comment text chars _ ends _ ih =>
      by_cases last : chars = []
      · rw [last] at ends
        exact .inr ends
      · refine (ih last).imp_left ?_
        rintro ⟨front, d, rfl, isBlank⟩
        exact ⟨'#' :: (text ++ front), d, by simp, isBlank⟩

/-! ## Tokens that take a call marker -/

namespace Token

open Lexeme (isBlank isNumeral marksCall)

/-- A token that can be called, a name or a closing bracket, which `slice` spells. -/
inductive Callee (token : Token) (slice : List Char) : Prop where
  | name : token.kind = .identifier → token.payload = .text (String.ofList slice) →
      Callee token slice
  | paren : token.kind = .rightParen → slice = [')'] → Callee token slice
  | bracket : token.kind = .rightBracket → slice = [']'] → Callee token slice

/-- A token that `slice` spells and that ends as a name may end: a reserved word, a number, or an
alphanumeric character that starts no lexeme. -/
inductive Lookalike (token : Token) (slice : List Char) : Prop where
  | keyword : (String.ofList slice, token.kind) ∈ keywords → Lookalike token slice
  | number : token.kind = .integer ∨ token.kind = .float →
      (∀ c ∈ slice, isNumeral c ∨ c = '.') → Lookalike token slice
  | stray {c : Char} : token.kind = .invalid → slice = [c] → Text.isAlphanumeric c →
      Lookalike token slice

/-- An exclamation mark directly after a token that `slice` spells marks a call. -/
def TakesMark (token : Token) (slice : List Char) : Prop :=
  token.Callee slice ∨ token.Lookalike slice

/-- The kinds of the tokens that may take a call marker. -/
def markedKinds : List Kind :=
  [.identifier, .rightParen, .rightBracket, .integer, .float, .invalid] ++ keywords.map (·.2)

theorem TakesMark.kind_mem {token : Token} {slice : List Char} (takes : token.TakesMark slice) :
    token.kind ∈ markedKinds := by
  rcases takes with (⟨kind, -⟩ | ⟨kind, -⟩ | ⟨kind, -⟩) | (⟨member⟩ | ⟨kind | kind, -⟩ | ⟨kind, -⟩)
  case inr.keyword => exact List.mem_append_right _ (List.mem_map_of_mem member)
  all_goals
    rw [kind]
    decide

theorem takesMark_invalid_iff {token : Token} {slice : List Char}
    (invalid : token.kind = .invalid) :
    token.TakesMark slice ↔ ∃ c, slice = [c] ∧ Text.isAlphanumeric c := by
  have table : ∀ entry ∈ keywords, entry.2 ≠ .invalid := by decide
  constructor
  · rintro ((⟨kind, -⟩ | ⟨kind, -⟩ | ⟨kind, -⟩) |
      (⟨member⟩ | ⟨kind | kind, -⟩ | ⟨-, same, alphanumeric⟩))
    case inr.keyword => exact absurd invalid (table _ member)
    case inr.stray => exact ⟨_, same, alphanumeric⟩
    all_goals cases invalid.symm.trans kind
  · rintro ⟨c, same, alphanumeric⟩
    exact .inr (.stray invalid same alphanumeric)

/-- At a backslash or a brace no token takes a call marker. -/
theorem takesMark_suffix {token : Token} {inner later : List Char} {c : Char}
    (atStart : inner = [] ∨ token.kind = .invalid ∧ (c = '\\' ∨ c = '\x7b' ∨ c = '\x7d')) :
    token.TakesMark (c :: later) ↔ token.TakesMark (inner ++ c :: later) := by
  rcases atStart with rfl | ⟨invalid, symbol⟩
  · rfl
  · have other : Text.isAlphanumeric c = false := by
      rcases symbol with rfl | rfl | rfl <;> decide
    rw [takesMark_invalid_iff invalid, takesMark_invalid_iff invalid]
    constructor
    all_goals
      rintro ⟨d, same, alphanumeric⟩
      have member : c ∈ [d] := by simp [← same]
      rw [List.mem_singleton.mp member, alphanumeric] at other
      cases other

/-- A blank between a token and an exclamation mark keeps them apart. -/
theorem not_takesMark_of_blank {token : Token} {slice between : List Char} {c : Char}
    (spelled : token.Spelled slice) (starts : token.kind ≠ .invalid → slice <+: between)
    (blank : isBlank c) : ¬token.TakesMark (between ++ [c]) := by
  have longer (valid : token.kind ≠ .invalid) : slice ≠ between ++ [c] := by
    rintro rfl
    have short := (starts valid).length_le
    rw [List.length_append, List.length_singleton] at short
    omega
  have table : ∀ entry ∈ keywords, entry.2.spelling? = some entry.1 ∧ entry.2 ≠ .invalid := by
    decide
  -- A token that is spelled up to the blank does not reach beyond it.
  rintro ((⟨kind, payload⟩ | ⟨kind, same⟩ | ⟨kind, same⟩) |
    (⟨member⟩ | ⟨kind, numerals⟩ | ⟨kind, same, alphanumeric⟩))
  case inl.name =>
    refine longer (by simp [kind]) ?_
    exact String.ofList_injective (Payload.text.inj ((spelled.name kind).symm.trans payload))
  case inl.paren =>
    exact longer (by simp [kind]) ((spelled.fixed ")" (by rw [kind]; rfl)).1.trans same.symm)
  case inl.bracket =>
    exact longer (by simp [kind]) ((spelled.fixed "]" (by rw [kind]; rfl)).1.trans same.symm)
  case inr.keyword =>
    obtain ⟨spelling, valid⟩ := table _ member
    exact longer valid ((spelled.fixed _ spelling).1.trans String.toList_ofList)
  case inr.number =>
    have numeral := numerals c (by simp)
    rcases Lexeme.isBlank_iff.mp blank with rfl | rfl | rfl | rfl <;> revert numeral <;> decide
  case inr.stray d =>
    obtain ⟨-, rfl⟩ : between = [] ∧ c = d := by
      simpa using List.append_eq_singleton_iff.mp same
    rcases Lexeme.isBlank_iff.mp blank with rfl | rfl | rfl | rfl <;> revert alphanumeric <;> decide

end Token

/-! ## Lexemes before an exclamation mark -/

namespace Lexeme

open Token (Kind TakesMark)

variable {previous : Option Char} {c : Char} {rest : List Char}

theorem marksCall_of_isBlank (blank : isBlank c) : marksCall (some c) = false := by
  rcases isBlank_iff.mp blank with rfl | rfl | rfl | rfl <;> decide

theorem marksCall_of_isQuote (quotes : isQuote c) : marksCall (some c) = false := by
  rcases eq_of_isQuote quotes with rfl | rfl | rfl <;> decide

/-- A slice that ends like a name makes an exclamation mark after it a call marker. -/
theorem marksCall_getLast? (front : List Char) {slice : List Char} (filled : slice ≠ [])
    (each : ∀ d ∈ slice, continuesWord d) : marksCall (front ++ slice).getLast? := by
  rw [List.getLast?_append_of_ne_nil front filled, List.getLast?_eq_some_getLast filled, marksCall,
    each _ (List.getLast_mem filled)]
  rfl

/-- After a literal an exclamation mark is no call marker. -/
theorem marksCall_literal {quote : Char} {body : Literal.Body} {after : List Char}
    (found : read previous c rest = .literal quote body)
    (split : c :: rest = (Lexeme.literal quote body).slice ++ '!' :: after) :
    marksCall (Lexeme.literal quote body).slice.getLast? = false := by
  obtain ⟨quotes, rfl⟩ := read_literal found
  obtain ⟨after', split', ends⟩ := Literal.closes_read quote rest
  obtain rfl : '!' :: after = after' :=
    List.append_cancel_left ((List.cons.inj split).2.symm.trans split')
  rcases ends with last | newline
  · rw [slice, List.getLast?_cons, last]
    exact marksCall_of_isQuote quotes
  · cases newline '!' rfl

theorem marksCall_word {letters : List Char} (found : read previous c rest = .word letters) :
    marksCall letters.getLast? := by
  obtain ⟨starts, rfl⟩ := read_word found
  refine marksCall_getLast? [] (List.cons_ne_nil _ _) (List.forall_mem_cons.mpr ⟨?_, ?_⟩)
  · exact continuesWord_of_startsWord starts
  · exact fun d member => List.mem_takeWhile_imp member

/-- A number is written with numerals and a point, and its last character is a numeral. -/
theorem marksCall_number {whole : List Char} {fraction : Option (List Char)}
    (found : read previous c rest = .number whole fraction) :
    marksCall (Lexeme.number whole fraction).slice.getLast? ∧
      ∀ d ∈ (Lexeme.number whole fraction).slice, isNumeral d ∨ d = '.' := by
  obtain ⟨⟨filled, numerals⟩, fractions⟩ := read_number found
  cases fraction with
  | none =>
      exact ⟨marksCall_getLast? [] filled fun d member =>
        continuesWord_of_isNumeral (numerals d member), fun d member => .inl (numerals d member)⟩
  | some digits =>
      obtain ⟨filled, numerals'⟩ := fractions digits rfl
      have slice : (Lexeme.number whole (some digits)).slice = whole ++ ['.'] ++ digits := by
        simp [slice]
      rw [slice]
      refine ⟨marksCall_getLast? _ filled fun d member =>
        continuesWord_of_isNumeral (numerals' d member), ?_⟩
      refine List.forall_mem_append.mpr ⟨List.forall_mem_append.mpr ⟨?_, by simp⟩, ?_⟩
      · exact fun d member => .inl (numerals d member)
      · exact fun d member => .inl (numerals' d member)

theorem marksCall_operator {kind : Kind} {text : List Char}
    (found : read previous c rest = .operator kind text) (payload : Payload) (location : Location) :
    marksCall text.getLast? ↔ TakesMark ⟨kind, payload, location⟩ text := by
  have table : (("!", .bang) :: Token.operators).all fun entry =>
      entry == (")", .rightParen) || entry == ("]", .rightBracket) ||
        !marksCall entry.1.toList.getLast? && !Token.markedKinds.contains entry.2 := by
    decide +kernel
  have here := List.all_eq_true.mp table _ (read_operator found)
  simp only [Bool.or_eq_true, beq_iff_eq, Bool.and_eq_true, Bool.not_eq_true', or_assoc,
    Prod.mk.injEq, String.toList_ofList] at here
  rcases here with ⟨same, rfl⟩ | ⟨same, rfl⟩ | ⟨unmarked, other⟩
  · obtain rfl : text = [')'] := String.ofList_injective same
    exact iff_of_true rfl (.inl (.paren rfl rfl))
  · obtain rfl : text = [']'] := String.ofList_injective same
    exact iff_of_true rfl (.inl (.bracket rfl rfl))
  · refine iff_of_false (by simp [unmarked]) fun takes => ?_
    have member := takes.kind_mem
    simp_all

theorem marksCall_stray {d : Char} (found : read previous c rest = .stray d) :
    marksCall (some d) = Text.isAlphanumeric d := by
  cases reads found with
  | stray notWord none =>
      have other (e : Char) (operator : (operator? (e :: rest)).isSome) : (c == e) = false := by
        rw [beq_eq_false_iff_ne]
        rintro rfl
        rw [none] at operator
        cases operator
      have underscore : (c == '_') = false := by simp_all [startsWord]
      simp [marksCall, continuesWord, underscore, other ')' rfl, other ']' rfl]

/-- What an exclamation mark is read as. -/
theorem read_mark (previous : Option Char) (rest : List Char) :
    (∃ text, read previous '!' rest = .operator .notEqual text) ∨
      read previous '!' rest = .operator (if marksCall previous then .bang else .not) ['!'] := by
  cases rest with
  | nil => exact .inr rfl
  | cons d rest =>
      by_cases equals : d = '='
      · subst equals
        exact .inl ⟨_, rfl⟩
      · have found : operator? ('!' :: d :: rest) = some ("!", .not) := by
          simp [operator?, Token.operators, List.isPrefixOf, Ne.symm equals]
        have other : isBlank '!' = false ∧ isQuote '!' = false ∧ startsWord '!' = false := by
          decide
        simp [read, other, found]

/-- A token takes an exclamation mark after its slice exactly if the last character of the slice
says so. -/
theorem marksCall_token? {location : Location} {segments : List Segment} {token : Token}
    {after : List Char} (split : c :: rest = (read previous c rest).slice ++ '!' :: after)
    (found : (read previous c rest).token? location segments = .ok (some token)) :
    marksCall (read previous c rest).slice.getLast? ↔
      token.TakesMark (read previous c rest).slice := by
  have yields := yields_of_token? found
  generalize lexeme : read previous c rest = other at yields split ⊢
  cases yields with
  | newline =>
      refine iff_of_false (by decide) fun takes => ?_
      exact absurd takes.kind_mem (by decide : Kind.newline ∉ Token.markedKinds)
  | operator => exact marksCall_operator lexeme _ _
  | keyword member => exact iff_of_true (marksCall_word lexeme) (.inr (.keyword member))
  | name => exact iff_of_true (marksCall_word lexeme) (.inl (.name rfl rfl))
  | integer =>
      obtain ⟨marks, numerals⟩ := marksCall_number lexeme
      exact iff_of_true marks (.inr (.number (.inl rfl) numerals))
  | float =>
      obtain ⟨marks, numerals⟩ := marksCall_number lexeme
      exact iff_of_true marks (.inr (.number (.inr rfl) numerals))
  | string =>
      refine iff_of_false (by simp [marksCall_literal lexeme split]) fun takes => ?_
      exact absurd takes.kind_mem (by decide : Kind.string ∉ Token.markedKinds)
  | broken quote items =>
      refine iff_of_false (by simp [marksCall_literal lexeme split]) ?_
      rw [Token.takesMark_invalid_iff rfl]
      rintro ⟨d, same, alphanumeric⟩
      obtain ⟨rfl, -⟩ := List.cons.inj same
      have marks : marksCall (some quote) := by simp [marksCall, continuesWord, alphanumeric]
      cases (marksCall_of_isQuote (read_literal lexeme).1).symm.trans marks
  | stray d =>
      rw [Token.takesMark_invalid_iff rfl]
      simp [slice, marksCall_stray lexeme]

end Lexeme

/-! ## Texts -/

namespace Token

open Lexeme (marksCall)

/-- Before the text `chars` stands the text `front`, whose last token is `last?`. Whether an
exclamation mark at the start of `chars` marks a call is the same by that token and by the character
before it. -/
structure Behind (previous : Option Char) (front : List Char) (last? : Option Token)
    (chars : List Char) : Prop where
  inside : ∀ last ∈ last?, last.location.offset ≤ front.length
  spelled : ∀ last ∈ last?, ∃ slice, last.Spelled slice ∧
    (last.kind ≠ .invalid → slice <+: front.drop last.location.offset)
  agrees : chars.head? = some '!' → (marksCall previous ↔
    ∃ last ∈ last?, last.TakesMark (front.drop last.location.offset))

namespace Behind

theorem start (front chars : List Char) : Behind none front none chars :=
  ⟨by simp, by simp, fun _ => by simp [marksCall]⟩

variable {previous : Option Char} {front : List Char} {last? : Option Token}

/-- Blanks and comments keep what stands before them from being called. -/
theorem skip {gap chars : List Char} (behind : Behind previous front last? (gap ++ chars))
    (blank : Gap chars gap) (filled : gap ≠ []) :
    Behind gap.getLast? (front ++ gap) last? chars := by
  have drop (last : Token) (member : last ∈ last?) :
      (front ++ gap).drop last.location.offset = front.drop last.location.offset ++ gap :=
    List.drop_append_of_le_length (behind.inside last member)
  refine ⟨fun last member => ?_, fun last member => ?_, fun mark => ?_⟩
  · exact (behind.inside last member).trans (by simp)
  · obtain ⟨slice, spelled, starts⟩ := behind.spelled last member
    refine ⟨slice, spelled, fun valid => ?_⟩
    rw [drop last member]
    exact (starts valid).trans (List.prefix_append _ _)
  · rcases blank.ends filled with ⟨init, c, rfl, isBlank⟩ | newline
    · refine iff_of_false (by simp [Lexeme.marksCall_of_isBlank isBlank]) ?_
      rintro ⟨last, member, takes⟩
      obtain ⟨slice, spelled, starts⟩ := behind.spelled last member
      rw [drop last member, ← List.append_assoc] at takes
      refine not_takesMark_of_blank spelled (fun valid => ?_) isBlank takes
      exact (starts valid).trans (List.prefix_append _ _)
    · cases newline '!' mark

/-- A token is what stands before the text after it. -/
theorem lexeme {c : Char} {rest after : List Char} {location : Location} {segments : List Segment}
    {token : Token} (here : location.offset = front.length)
    (split : c :: rest = (Lexeme.read previous c rest).slice ++ after)
    (found : (Lexeme.read previous c rest).token? location segments = .ok (some token)) :
    Behind (Lexeme.read previous c rest).slice.getLast?
      (front ++ (Lexeme.read previous c rest).slice) (some token) after := by
  obtain ⟨spelled, marks⟩ := Lexeme.spelled_token? found
  obtain ⟨inner, d, later, slice, place, atStart⟩ := Lexeme.exists_place found
  have offset : token.location.offset = (front ++ inner).length := by
    rw [place, Location.advanceAll_offset, here, List.length_append]
  have drop : (front ++ (Lexeme.read previous c rest).slice).drop token.location.offset =
      d :: later := by
    rw [offset, slice, ← List.append_assoc, List.drop_left]
  refine ⟨?_, ?_, fun next => ?_⟩
  · rintro _ ⟨⟩
    rw [offset, slice]
    simp
  · rintro _ ⟨⟩
    refine ⟨_, spelled, fun valid => ?_⟩
    obtain rfl := atStart.resolve_right fun both => valid both.1
    rw [drop, slice]
    exact List.prefix_refl _
  · obtain ⟨after, rfl⟩ := List.head?_eq_some_iff.mp next
    simp only [Option.mem_some_iff, exists_eq_left', drop, takesMark_suffix atStart, ← slice,
      Lexeme.marksCall_token? split found]

end Behind

/-- A token stands at an exclamation mark of the text, and not at that of `!=`. -/
structure Lone (text : List Char) (mark : Token) : Prop where
  place : text[mark.location.offset]? = some '!'
  single : mark.kind ≠ .notEqual

/-- The text from the place of a token up to that of a later one. -/
def upTo (text : List Char) (token later : Token) : List Char :=
  (text.take later.location.offset).drop token.location.offset

/-- After the token `last?`, a token is a call marker or a negation exactly if it is an exclamation
mark on its own that `last?` takes or does not take. -/
structure Judged (text : List Char) (last? : Option Token) (mark : Token) : Prop where
  bang : mark.kind = .bang ↔
    Lone text mark ∧ ∃ last ∈ last?, last.TakesMark (upTo text last mark)
  not : mark.kind = .not ↔
    Lone text mark ∧ ¬∃ last ∈ last?, last.TakesMark (upTo text last mark)

theorem judged_of_not_lone {text : List Char} {mark : Token} (other : mark.kind ≠ .bang)
    (other' : mark.kind ≠ .not) (apart : ¬Lone text mark) (last? : Option Token) :
    Judged text last? mark :=
  ⟨iff_of_false other fun both => apart both.1, iff_of_false other' fun both => apart both.1⟩

/-- An exclamation mark is judged by what stands before it. -/
theorem judged_mark {previous : Option Char} {front rest back : List Char} {last? : Option Token}
    {location : Location} {segments : List Segment} {token : Token}
    (behind : Behind previous front last? ('!' :: rest)) (here : location.offset = front.length)
    (found : (Lexeme.read previous '!' rest).token? location segments = .ok (some token)) :
    Judged (front ++ ('!' :: rest ++ back)) last? token := by
  rcases Lexeme.read_mark previous rest with ⟨text, lexeme⟩ | lexeme
  · rw [lexeme] at found
    obtain rfl := Option.some.inj (Except.ok.inj found)
    exact judged_of_not_lone (by simp) (by simp) (fun lone => lone.single rfl) _
  · rw [lexeme] at found
    obtain rfl := Option.some.inj (Except.ok.inj found)
    have lone (kind : Kind) (payload : Payload) (single : kind ≠ .notEqual) :
        Lone (front ++ ('!' :: rest ++ back)) ⟨kind, payload, location⟩ :=
      ⟨by simp [here], single⟩
    have reach (last : Token) (kind : Kind) (payload : Payload) :
        upTo (front ++ ('!' :: rest ++ back)) last ⟨kind, payload, location⟩ =
          front.drop last.location.offset := by
      rw [upTo, here, List.take_left]
    have agrees := behind.agrees rfl
    cases marks : marksCall previous with
    | true =>
        have takes := agrees.mp marks
        exact ⟨iff_of_true rfl ⟨lone _ _ (by decide), by simpa only [reach] using takes⟩,
          iff_of_false (by simp) fun both => both.2 (by simpa only [reach] using takes)⟩
    | false =>
        have leaves : ¬∃ last ∈ last?, last.TakesMark (front.drop last.location.offset) := by
          simpa [marks] using agrees
        exact ⟨iff_of_false (by simp) fun both => leaves (by simpa only [reach] using both.2),
          iff_of_true rfl ⟨lone _ _ (by decide), by simpa only [reach] using leaves⟩⟩

theorem judged_lexeme {previous : Option Char} {front rest back : List Char} {c : Char}
    {last? : Option Token} {location : Location} {segments : List Segment} {token : Token}
    (behind : Behind previous front last? (c :: rest)) (here : location.offset = front.length)
    (found : (Lexeme.read previous c rest).token? location segments = .ok (some token)) :
    Judged (front ++ (c :: rest ++ back)) last? token := by
  by_cases mark : c = '!'
  · subst mark
    exact judged_mark behind here found
  · obtain ⟨after, split, -⟩ := exists_after previous c rest
    obtain ⟨spelled, -⟩ := Lexeme.spelled_token? found
    obtain ⟨inner, d, later, slice, place, atStart⟩ := Lexeme.exists_place found
    have offset : token.location.offset = (front ++ inner).length := by
      rw [place, Location.advanceAll_offset, here, List.length_append]
    have other (kind : Kind) (spelling : kind.spelling? = some "!") : token.kind ≠ kind := by
      intro same
      have text := (spelled.fixed "!" (by rw [same, spelling])).1
      rw [text] at split
      exact mark (List.cons.inj split).1
    refine judged_of_not_lone (other .bang rfl) (other .not rfl) (fun lone => mark ?_) _
    have there := lone.place
    rw [split, slice, offset, List.append_assoc, List.append_assoc, ← List.append_assoc front,
      List.getElem?_append_right (Nat.le_refl _), Nat.sub_self] at there
    obtain rfl : d = '!' := by simpa using there
    obtain rfl := atStart.resolve_right (by simp)
    rw [slice] at split
    exact (List.cons.inj split).1

/-- Every token of a part of the text is judged by the token before it. -/
theorem judged_scanning {location : Location} {previous : Option Char}
    {front chars back : List Char} {last? : Option Token} {tokens : List Token}
    (here : location.offset = front.length) (ends : back.head? ≠ some '!')
    (behind : Behind previous front last? chars)
    (scanning : Scanning previous location chars tokens) {before after : List Token} {mark : Token}
    (split : tokens = before ++ mark :: after) :
    Judged (front ++ (chars ++ back)) (before.getLast?.or last?) mark := by
  induction scanning generalizing front last? before with
  | done =>
      rcases List.append_eq_singleton_iff.mp split.symm with ⟨rfl, same⟩ | ⟨-, none⟩
      case inr => cases none
      obtain ⟨rfl, -⟩ := List.cons.inj same
      refine judged_of_not_lone (by simp [inserted]) (by simp [inserted]) (fun lone => ends ?_) _
      have there := lone.place
      rwa [List.nil_append, inserted, here, List.getElem?_append_right (Nat.le_refl _),
        Nat.sub_self, ← List.head?_eq_getElem?] at there
  | @lexeme previous location c rest rest' _ token? later cut _ found _ ih =>
      have whole : front ++ (c :: rest ++ back) =
          (front ++ (Lexeme.read previous c rest).slice) ++ (rest' ++ back) := by
        rw [cut, List.append_assoc, List.append_assoc]
      have there : (location.advanceAll (Lexeme.read previous c rest).slice).offset =
          (front ++ (Lexeme.read previous c rest).slice).length := by
        rw [Location.advanceAll_offset, here, List.length_append]
      cases token? with
      | none =>
          have gap : Gap rest' (Lexeme.read previous c rest).slice := by
            simpa using Lexeme.gap_of_token?_eq_none found cut .nil
          rw [cut] at behind
          rw [whole]
          exact ih there (behind.skip gap (Lexeme.read_slice_ne_nil previous c rest)) split
      | some token =>
          cases before with
          | nil =>
              obtain ⟨rfl, -⟩ := List.cons.inj split
              exact judged_lexeme behind here found
          | cons token' before =>
              obtain ⟨rfl, later⟩ := List.cons.inj split
              have judged := ih there (.lexeme here cut found) later
              rw [whole]
              simpa [List.getLast?_cons] using judged

/-- A list of tokens that scanning makes of a text: that of the text itself, or that of an
expression that is interpolated in it, to any depth. -/
def IsSequence (tokens list : List Token) : Prop :=
  list = tokens ∨ ∃ token ∈ nestedAll tokens, ∃ text, .expression list text ∈ token.payload.parts

/-- A text without integer literals of too many digits is scanned. Among its tokens, and among those
of every interpolated expression, the call markers are the exclamation marks on their own directly
after a name or a closing bracket, and those directly after a reserved word, a number or an
alphanumeric character that starts no lexeme. All other exclamation marks on their own are
negations. -/
theorem scan_callMarks {source : String} (short : InBounds none source.toList)
    (file : Option String) :
    ∃ tokens, scan source file = .ok tokens ∧
      ∀ list, IsSequence tokens list → ∀ before mark after, list = before ++ mark :: after →
        (mark.kind = .bang ↔ Lone source.toList mark ∧ ∃ last ∈ before.getLast?,
          last.Callee (upTo source.toList last mark) ∨
            last.Lookalike (upTo source.toList last mark)) ∧
        (mark.kind = .not ↔ Lone source.toList mark ∧ ¬∃ last ∈ before.getLast?,
          last.Callee (upTo source.toList last mark) ∨
            last.Lookalike (upTo source.toList last mark)) := by
  obtain ⟨tokens, found⟩ := exists_scanFrom_of_inBounds short (.start file)
  have judge {front chars back : List Char} {list : List Token}
      (whole : source.toList = front ++ (chars ++ back)) (ends : back.head? ≠ some '!')
      (found : scanFrom none ((Location.start file).advanceAll front) chars = .ok list)
      {before after : List Token} {mark : Token} (split : list = before ++ mark :: after) :
      Judged source.toList before.getLast? mark := by
    have here : ((Location.start file).advanceAll front).offset = front.length := by
      rw [Location.advanceAll_offset]
      exact Nat.zero_add _
    have judged := judged_scanning here ends (.start front chars) (scanning_of_scanFrom found) split
    rwa [Option.or_none, ← whole] at judged
  have all : source.toList = [] ++ (source.toList ++ []) := (List.append_nil _).symm
  refine ⟨tokens, found, ?_⟩
  rintro list (rfl | ⟨token, member, text, part⟩) before mark after split
  · have judged := judge all (by simp) found split
    exact ⟨judged.bang, judged.not⟩
  · obtain ⟨front, back, whole, innerFound⟩ :=
      (placed_scanFrom all found token member).stands list text part
    have judged := judge (by simpa using whole) (by simp) innerFound split
    exact ⟨judged.bang, judged.not⟩

/-- A negation at the start of an interpolated expression, and a call in it. -/
theorem scan_callMarks_interpolated :
    let source := "\x60\x7b!f!\x7d\x60"
    InBounds none source.toList ∧ ∃ tokens negation name call after,
      scan source none = .ok tokens ∧ IsSequence tokens (negation :: name :: call :: after) ∧
      (negation.kind = .not ∧ Lone source.toList negation) ∧
      call.kind = .bang ∧ Lone source.toList call ∧
      (name.Callee (upTo source.toList name call) ∨
        name.Lookalike (upTo source.toList name call)) := by
  intro source
  have shape : ((scan source none).toOption.bind fun tokens =>
      tokens.head?.bind fun token => token.payload.parts.head?.bind fun part =>
        part.tokens?.map (·.map (·.kind))) = some [.not, .identifier, .bang, .endOfFile] := by
    decide +kernel
  obtain ⟨tokens, found, shape⟩ := Option.bind_eq_some_iff.mp shape
  obtain ⟨token, first, shape⟩ := Option.bind_eq_some_iff.mp shape
  obtain ⟨part, only, shape⟩ := Option.bind_eq_some_iff.mp shape
  obtain ⟨list, inner, shape⟩ := Option.map_eq_some_iff.mp shape
  obtain ⟨negation, _, rfl, isNot, shape⟩ := List.map_eq_cons_iff.mp shape
  obtain ⟨name, _, rfl, -, shape⟩ := List.map_eq_cons_iff.mp shape
  obtain ⟨call, after, rfl, isBang, -⟩ := List.map_eq_cons_iff.mp shape
  have found := Layout.eq_ok_of_toOption found
  have short : InBounds none source.toList := inBounds_of_scanFrom found
  have sequence : IsSequence tokens (negation :: name :: call :: after) := by
    obtain ⟨rest, rfl⟩ := List.head?_eq_some_iff.mp first
    cases part with
    | text content => cases inner
    | expression list text =>
        obtain rfl := Option.some.inj inner
        refine .inr ⟨token, ?_, text, List.mem_of_head? only⟩
        rw [nestedAll, nested_eq]
        exact List.mem_cons_self
  obtain ⟨tokens', found', marks⟩ := scan_callMarks short none
  obtain rfl := Except.ok.inj (found.symm.trans found')
  obtain ⟨-, negates⟩ := marks _ sequence [] negation _ rfl
  obtain ⟨calls, -⟩ := marks _ sequence [negation, name] call after rfl
  obtain ⟨lone, _, ⟨⟩, takes⟩ := calls.mp isBang
  exact ⟨short, tokens, negation, name, call, after, found, sequence,
    ⟨isNot, (negates.mp isNot).1⟩, isBang, lone, takes⟩

/-- After a reserved word an exclamation mark is taken for a call marker. -/
theorem callMark_of_keyword :
    let source := "if!x"
    ∃ last mark after, scan source none = .ok (last :: mark :: after) ∧
      Lone source.toList mark ∧ mark.kind = .bang ∧ ∀ slice, ¬last.Callee slice := by
  intro source
  have shape : (scan source none).toOption.map (·.map fun token =>
      (token.kind, token.location.offset)) =
      some [(.ifWord, 0), (.bang, 2), (.identifier, 3), (.endOfFile, 4)] := by
    decide +kernel
  obtain ⟨tokens, found, shape⟩ := Option.map_eq_some_iff.mp shape
  obtain ⟨last, _, rfl, first, shape⟩ := List.map_eq_cons_iff.mp shape
  obtain ⟨mark, after, rfl, second, -⟩ := List.map_eq_cons_iff.mp shape
  obtain ⟨isWord, -⟩ := Prod.mk.inj first
  obtain ⟨isBang, place⟩ := Prod.mk.inj second
  have lone : Lone source.toList mark := by
    refine ⟨?_, by simp [isBang]⟩
    rw [place]
    decide +kernel
  refine ⟨last, mark, after, Layout.eq_ok_of_toOption found, lone, isBang, ?_⟩
  rintro slice (⟨kind, -⟩ | ⟨kind, -⟩ | ⟨kind, -⟩) <;> cases isWord.symm.trans kind

end Token

end Offside
