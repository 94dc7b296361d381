import Offside.Proofs.Token.Interpolation
import Offside.Proofs.Token.Padding
import Mathlib.Data.List.Perm.Subperm

/-!
# Line feeds and line breaks

A line feed of a text has a token of its own, unless it is shielded: a template may go over the end
of a line after a backslash in a literal of an interpolation's source. String literals, comments and
what is passed over after a defect stop at a line feed, and so does a template everywhere else.
-/

namespace Offside

open Literal (Item Passes backquote isQuote slices)

/-! ## Line feeds in literals -/

namespace Literal

/-- The text of a template after its opening quote ends with a backslash in a literal of the source
of an interpolation. -/
def Shields (before : List Char) : Prop :=
  ∃ items source depth quote, before = slices items ++ '\x7b' :: (source ++ ['\\']) ∧
    (∀ item ∈ items, item.Found backquote) ∧ Passes source 0 none depth (some quote)

theorem Shields.cons {item : Item} {before : List Char} (found : item.Found backquote)
    (shields : Shields before) : Shields (item.slice ++ before) := by
  obtain ⟨items, source, depth, quote, rfl, others, passes⟩ := shields
  exact ⟨item :: items, source, depth, quote, by rw [slices_cons, List.append_assoc],
    List.forall_mem_cons.mpr ⟨found, others⟩, passes⟩

theorem newline_not_mem_recovery (quote : Char) (chars : List Char) :
    '\n' ∉ recovery quote chars := by
  induction chars with
  | nil => exact List.not_mem_nil
  | cons c rest ih =>
      rw [recovery]
      split
      case isTrue => exact List.not_mem_nil
      case isFalse inLine =>
          split
          case isTrue => simpa using Ne.symm inLine
          case isFalse => simpa [ih] using Ne.symm inLine

/-- A line feed in two pieces of text is in the first or in the second. -/
theorem newline_of_append_eq {first second before after : List Char}
    (found : first ++ second = before ++ '\n' :: after) :
    (∃ inside, first = before ++ '\n' :: inside) ∨
      ∃ inside, before = first ++ inside ∧ second = inside ++ '\n' :: after := by
  rcases List.append_eq_append_iff.mp found with ⟨inside, same, rest⟩ | ⟨inside, same, rest⟩
  · exact .inr ⟨inside, same, rest⟩
  · cases inside with
    | nil => exact .inr ⟨[], by rw [same, List.append_nil, List.append_nil], rest.symm⟩
    | cons c inside =>
        obtain ⟨rfl, -⟩ := List.cons.inj rest
        exact .inl ⟨inside, same⟩

theorem newline_of_not_mem {first second before after : List Char}
    (inLine : '\n' ∉ first) (found : first ++ second = before ++ '\n' :: after) :
    ∃ inside, before = first ++ inside ∧ second = inside ++ '\n' :: after := by
  refine (newline_of_append_eq found).resolve_left ?_
  rintro ⟨inside, rfl⟩
  simp at inLine

/-- In the source of an interpolation a line feed follows a backslash in a literal. -/
theorem Searched.passes_to_newline {depth : Nat} {quote : Option Char}
    {chars source before after : List Char} {closed : Bool}
    (searched : Searched depth quote chars source closed)
    (found : source = before ++ '\n' :: after) :
    ∃ passed depth' quote', before = passed ++ ['\\'] ∧
      Passes passed depth quote depth' (some quote') := by
  induction searched generalizing before with
  | stopped | closed => simp at found
  | cut => cases before <;> simp_all
  | @outside _ c _ _ _ inLine goesOn _ ih =>
      have single : '\n' ∉ [c] := by simpa using Ne.symm inLine
      obtain ⟨before, rfl, later⟩ := newline_of_not_mem single found
      obtain ⟨passed, depth', quote', rfl, passes⟩ := ih later
      exact ⟨c :: passed, depth', quote', rfl, (passes_outside inLine goesOn).append passes⟩
  | @within _ _ c _ _ _ inLine unshielded _ ih =>
      have single : '\n' ∉ [c] := by simpa using Ne.symm inLine
      obtain ⟨before, rfl, later⟩ := newline_of_not_mem single found
      obtain ⟨passed, depth', quote', rfl, passes⟩ := ih later
      exact ⟨c :: passed, depth', quote', rfl, (passes_within _ inLine unshielded _).append passes⟩
  | @shielded depth quote c _ _ _ _ ih =>
      have inLine : '\n' ∉ ['\\'] := by decide
      obtain ⟨before, rfl, later⟩ := newline_of_not_mem inLine found
      cases before with
      | nil => exact ⟨[], depth, quote, rfl, .nil _ _⟩
      | cons d before =>
          obtain ⟨rfl, rest⟩ := List.cons.inj later
          obtain ⟨passed, depth', quote', rfl, passes⟩ := ih rest
          exact ⟨'\\' :: c :: passed, depth', quote', rfl, (passes_shielded _ c _).append passes⟩

/-- A line feed of a template that starts with an interpolation is in its source, where it is
shielded, or after it. -/
theorem shields_or_after {chars source more before after : List Char} {closed : Bool}
    (same : interpolation 0 none chars = (source, closed))
    (found : '\x7b' :: (source ++ more) = before ++ '\n' :: after) :
    Shields before ∨
      ∃ inside, before = '\x7b' :: (source ++ inside) ∧ more = inside ++ '\n' :: after := by
  have opening : '\n' ∉ ['\x7b'] := by decide
  obtain ⟨before, rfl, later⟩ := newline_of_not_mem opening found
  rcases newline_of_append_eq later with ⟨inside, here⟩ | ⟨inside, rfl, rest⟩
  · have searched := searched 0 none chars
    rw [same] at searched
    obtain ⟨source, depth, quote, rfl, passes⟩ := searched.passes_to_newline here
    exact .inl ⟨[], source, depth, quote, rfl, List.forall_mem_nil _, passes⟩
  · exact .inr ⟨inside, rfl, rest⟩

/-- A line feed of a text that starts with an item of a literal is shielded in the source of an
interpolation, or comes after the item. -/
theorem Item.Stands.shields_or_after {quote : Char} {item : Item} (stands : item.Stands quote)
    {more before after : List Char} (found : item.slice ++ more = before ++ '\n' :: after) :
    quote = backquote ∧ Shields before ∨
      ∃ inside, before = item.slice ++ inside ∧ more = inside ++ '\n' :: after := by
  cases stands with
  | plain inLine => exact .inr (newline_of_not_mem (by simpa [slice] using Ne.symm inLine) found)
  | escape _ inLine => exact .inr (newline_of_not_mem (by simpa [slice] using Ne.symm inLine) found)
  | brace _ isBrace =>
      refine .inr (newline_of_not_mem ?_ found)
      rcases isBrace with rfl | rfl <;> decide
  | interpolation isTemplate passes =>
      rw [slice, List.cons_append, List.append_assoc] at found
      rcases Literal.shields_or_after (passes.closed []) found with shields | ⟨inside, rfl, later⟩
      · exact .inl ⟨isTemplate, shields⟩
      · obtain ⟨inside, rfl, second⟩ := newline_of_not_mem (by decide) later
        exact .inr ⟨inside, by simp [slice], second⟩

/-- Where a literal ends a line feed is in the source of an interpolation that is cut or empty. -/
theorem Ending.Stands.shields {quote : Char} (quotes : isQuote quote) {chars : List Char}
    {ending : Ending} (stands : ending.Stands quote chars) {before after : List Char}
    (found : ending.slice quote = before ++ '\n' :: after) :
    quote = backquote ∧ Shields before := by
  have absent (inLine : '\n' ∉ ending.slice quote) : quote = backquote ∧ Shields before := by
    rw [found] at inLine
    simp at inLine
  cases stands with
  | closed => exact absent (by simpa [slice] using ne_of_isQuote quotes rfl)
  | unterminated | unterminatedEscape => exact absent (by simp [slice])
  | invalidEscape | loneClosingBrace =>
      exact absent (List.not_mem_cons_of_ne_of_not_mem (by decide) (newline_not_mem_recovery _ _))
  | @unterminatedInterpolation _ source isTemplate same =>
      have found : '\x7b' :: (source ++ []) = before ++ '\n' :: after := by rwa [List.append_nil]
      exact ⟨isTemplate, (Literal.shields_or_after same found).resolve_right (by simp)⟩
  | @emptyInterpolation chars source isTemplate same =>
      refine ⟨isTemplate, (Literal.shields_or_after same found).resolve_right ?_⟩
      rintro ⟨inside, -, later⟩
      have inLine : '\n' ∉ '\x7d' :: recovery quote (chars.drop (source.length + 1)) :=
        List.not_mem_cons_of_ne_of_not_mem (by decide) (newline_not_mem_recovery _ _)
      rw [later] at inLine
      simp at inLine

/-- In a literal a line feed is shielded. -/
theorem shields_of_read {quote : Char} (quotes : isQuote quote) (chars : List Char)
    {before after : List Char} (found : (read quote chars).slice quote = before ++ '\n' :: after) :
    quote = backquote ∧ Shields before := by
  obtain ⟨rest, -, stand, ends⟩ := stands_read quote chars
  rw [Body.slice] at found
  generalize (read quote chars).items = items at stand found
  induction items generalizing before with
  | nil => exact ends.shields quotes found
  | cons item items ih =>
      obtain ⟨first, others⟩ := List.forall_mem_cons.mp stand
      rw [slices_cons, List.append_assoc] at found
      rcases first.shields_or_after found with shields | ⟨inside, rfl, later⟩
      · exact shields
      · obtain ⟨rfl, shields⟩ := ih others later
        exact ⟨rfl, shields.cons first.found⟩

end Literal

namespace Lexeme

/-- A lexeme that is no literal stands on one line. -/
theorem ne_newline_of_mem_slice {previous : Option Char} {c : Char} {rest : List Char}
    (inLine : c ≠ '\n') (unquoted : isQuote c = false) :
    ∀ d ∈ (read previous c rest).slice, d ≠ '\n' := by
  have each : ∀ d ∈ (read previous c rest).slice, d != '\n' := by
    refine forall_mem_slice unquoted (by simpa using inLine) ?_ ?_ rfl (by decide +kernel)
    · exact fun _ d member => by simpa using List.mem_takeWhile_imp member
    · intro d letter
      rw [bne_iff_ne]
      rintro rfl
      exact absurd letter (by decide)
  exact fun d member => by simpa using each d member

/-- A line feed inside a lexeme is one that a template shields. -/
theorem shields_of_slice {previous : Option Char} {c : Char} {rest before after : List Char}
    (inLine : c ≠ '\n') (found : (read previous c rest).slice = before ++ '\n' :: after) :
    ∃ inside, before = backquote :: inside ∧ Literal.Shields inside := by
  cases quotes : isQuote c with
  | false =>
      have member : '\n' ∈ (read previous c rest).slice := by
        rw [found]
        simp
      exact absurd rfl (ne_newline_of_mem_slice inLine quotes '\n' member)
  | true =>
      rw [read_quote quotes, slice] at found
      cases before with
      | nil => exact absurd (List.cons.inj found).1 inLine
      | cons d inside =>
          obtain ⟨rfl, later⟩ := List.cons.inj found
          obtain ⟨rfl, shields⟩ := Literal.shields_of_read quotes rest later
          exact ⟨inside, rfl, shields⟩

end Lexeme

/-! ## Line breaks -/

namespace Token

/-- The offsets of the line breaks among tokens. -/
def lineBreaks (tokens : List Token) : List Nat :=
  (tokens.filter (·.kind = .newline)).map (·.location.offset)

/-- In a text that starts at `offset` after the character `previous`, a template goes over the line
feed at `place`, which is shielded there. -/
inductive Shielded : (previous : Option Char) → (offset : Nat) → List Char → (place : Nat) → Prop
  | here {previous : Option Char} {offset : Nat} {c : Char} {rest before after : List Char} :
      (Lexeme.read previous c rest).slice = backquote :: (before ++ '\n' :: after) →
      Literal.Shields before → Shielded previous offset (c :: rest) (offset + before.length + 1)
  | later {previous : Option Char} {offset place : Nat} {c : Char} {rest after : List Char} :
      c :: rest = (Lexeme.read previous c rest).slice ++ after →
      Shielded (Lexeme.read previous c rest).slice.getLast?
        (offset + (Lexeme.read previous c rest).slice.length) after place →
      Shielded previous offset (c :: rest) place

@[simp]
theorem lineBreaks_append (tokens later : List Token) :
    lineBreaks (tokens ++ later) = lineBreaks tokens ++ lineBreaks later := by
  simp [lineBreaks]

/-- Only a line feed makes a line break. -/
theorem lineBreaks_token? {previous : Option Char} {c : Char} {rest : List Char}
    {location : Location} {segments : List Segment} {token? : Option Token} (inLine : c ≠ '\n')
    (found : (Lexeme.read previous c rest).token? location segments = .ok token?) :
    lineBreaks token?.toList = [] := by
  cases token? with
  | none => rfl
  | some token =>
      have other := Lexeme.kind_ne_newline inLine found
      simp [lineBreaks, other]

theorem exists_of_mem_idxsOf {chars : List Char} {offset place : Nat}
    (member : place ∈ chars.idxsOf '\n' offset) :
    ∃ before after, chars = before ++ '\n' :: after ∧ place = offset + before.length := by
  obtain ⟨lower, inside, isNewline⟩ := List.mem_idxsOf_iff_getElem_sub_pos.mp member
  refine ⟨chars.take (place - offset), chars.drop (place - offset + 1), ?_, ?_⟩
  · rw [← beq_iff_eq.mp isNewline, List.cons_getElem_drop_succ, List.take_append_drop]
  · rw [List.length_take_of_le inside.le]
    omega

theorem Shielded.lt {previous : Option Char} {offset place : Nat} {chars : List Char}
    (shielded : Shielded previous offset chars place) : offset < place := by
  induction shielded with
  | here => omega
  | later _ _ ih => omega

/-- The line feed at `place` follows a backslash. -/
theorem Shielded.follows_backslash {previous : Option Char} {offset place : Nat}
    {chars : List Char} (shielded : Shielded previous offset chars place) :
    ∃ before after, chars = before ++ '\\' :: '\n' :: after ∧
      place = offset + before.length + 1 := by
  induction shielded with
  | @here previous offset c rest before after slice shields =>
      obtain ⟨more, split, -⟩ := exists_after previous c rest
      obtain ⟨items, source, depth, quote, rfl, -, -⟩ := shields
      refine ⟨backquote :: (slices items ++ '\x7b' :: source), after ++ more, ?_, ?_⟩
      · rw [split, slice]
        simp
      · simp
        omega
  | later split _ ih =>
      obtain ⟨before, after, rfl, rfl⟩ := ih
      refine ⟨_ ++ before, after, by rw [split, List.append_assoc], ?_⟩
      rw [List.length_append]
      omega

/-- After the first lexeme a line feed is shielded by a later one. -/
theorem Shielded.of_le {previous : Option Char} {offset place : Nat} {c : Char}
    {rest after : List Char} (split : c :: rest = (Lexeme.read previous c rest).slice ++ after)
    (lower : offset + (Lexeme.read previous c rest).slice.length ≤ place)
    (shielded : Shielded previous offset (c :: rest) place) :
    Shielded (Lexeme.read previous c rest).slice.getLast?
      (offset + (Lexeme.read previous c rest).slice.length) after place := by
  cases shielded with
  | here slice =>
      rw [slice] at lower
      simp at lower
      omega
  | later split' shielded =>
      rwa [List.append_cancel_left (split'.symm.trans split)] at shielded

/-- What the first lexeme of a text adds to the line breaks. -/
theorem lineBreaks_lexeme {previous : Option Char} {location : Location} {c : Char}
    {rest : List Char} {segments : List Segment} {token? : Option Token}
    (found : (Lexeme.read previous c rest).token? location segments = .ok token?) :
    List.Sublist (lineBreaks token?.toList)
        ((Lexeme.read previous c rest).slice.idxsOf '\n' location.offset) ∧
      ∀ place ∈ (Lexeme.read previous c rest).slice.idxsOf '\n' location.offset,
        place ∈ lineBreaks token?.toList ↔
          ¬Shielded previous location.offset (c :: rest) place := by
  by_cases isNewline : c = '\n'
  · subst isNewline
    have lexeme : Lexeme.read previous '\n' rest = .newline := rfl
    rw [lexeme] at found ⊢
    obtain rfl := Except.ok.inj found
    refine ⟨List.Sublist.refl _, fun place member => iff_of_true member fun shielded => ?_⟩
    obtain rfl : place = location.offset := List.mem_singleton.mp member
    exact Nat.lt_irrefl _ shielded.lt
  · rw [lineBreaks_token? isNewline found]
    refine ⟨List.nil_sublist _, fun place member => ?_⟩
    obtain ⟨before, after, slice, rfl⟩ := exists_of_mem_idxsOf member
    obtain ⟨inside, rfl, shields⟩ := Lexeme.shields_of_slice isNewline slice
    exact iff_of_false List.not_mem_nil (not_not_intro (.here slice shields))

/-- The line breaks of a text are its line feeds but for those that templates shield. -/
theorem lineBreaks_scanFrom {previous : Option Char} {location : Location} {chars : List Char}
    {tokens : List Token} (found : scanFrom previous location chars = .ok tokens) :
    List.Sublist (lineBreaks tokens) (chars.idxsOf '\n' location.offset) ∧
      ∀ place ∈ chars.idxsOf '\n' location.offset,
        place ∈ lineBreaks tokens ↔ ¬Shielded previous location.offset chars place := by
  replace found := scanning_of_scanFrom found
  induction found with
  | done => exact ⟨List.nil_sublist _, by simp⟩
  | @lexeme previous location c rest after _ token? later split _ tokenFound _ ih =>
      obtain ⟨sublist, here⟩ := lineBreaks_lexeme tokenFound
      obtain ⟨sublist', there⟩ := ih
      rw [Location.advanceAll_offset] at sublist' there
      have feeds : (c :: rest).idxsOf '\n' location.offset =
          (Lexeme.read previous c rest).slice.idxsOf '\n' location.offset ++
            after.idxsOf '\n' (location.offset + (Lexeme.read previous c rest).slice.length) := by
        rw [← List.idxsOf_append, ← split]
      rw [feeds, lineBreaks_append]
      refine ⟨sublist.append sublist', fun place member => ?_⟩
      -- The offsets of the lexeme are smaller than those after it.
      rcases List.mem_append.mp member with inside | beyond
      · have upper := List.lt_add_of_mem_idxsOf place inside
        have absent : place ∉ lineBreaks later := fun member => by
          have := List.ge_of_mem_idxsOf place (sublist'.subset member)
          omega
        rw [List.mem_append, or_iff_left absent, here place inside]
      · have lower := List.ge_of_mem_idxsOf place beyond
        have absent : place ∉ lineBreaks token?.toList := fun member => by
          have := List.lt_add_of_mem_idxsOf place (sublist.subset member)
          omega
        rw [List.mem_append, or_iff_right absent, there place beyond]
        exact not_congr ⟨.later split, .of_le split lower⟩

/-- A text without integer literals of too many digits is scanned, and in the order of the text its
line breaks stand where its line feeds are, but for the line feeds that are shielded. Only after a
backslash at the end of a line one is. -/
theorem scan_lineBreaks {source : String} (short : InBounds none source.toList)
    (file : Option String) :
    ∃ tokens, scan source file = .ok tokens ∧
      List.Sublist (lineBreaks tokens) (source.toList.idxsOf '\n') ∧
      (∀ place ∈ source.toList.idxsOf '\n',
        place ∈ lineBreaks tokens ↔ ¬Shielded none 0 source.toList place) ∧
      (¬['\\', '\n'] <:+: source.toList → lineBreaks tokens = source.toList.idxsOf '\n') := by
  obtain ⟨tokens, found⟩ := exists_scanFrom_of_inBounds short (.start file)
  obtain ⟨sublist, member⟩ := lineBreaks_scanFrom found
  refine ⟨tokens, found, sublist, member, fun unshielded => ?_⟩
  have all : source.toList.idxsOf '\n' ⊆ lineBreaks tokens := by
    refine fun place inside => (member place inside).mpr fun shielded => unshielded ?_
    obtain ⟨before, after, split, -⟩ := shielded.follows_backslash
    exact ⟨before, after, by rw [split]; simp⟩
  exact sublist.eq_of_length_le (List.Nodup.subperm List.nodup_idxsOf all).length_le

/-- A template with a literal that goes over the end of a line, between two other ends of lines. -/
theorem scan_lineBreaks_threeLines :
    let source := "a\n\x60\x7b'\\\nb'\x7d\x60\nc"
    InBounds none source.toList ∧ source.toList.idxsOf '\n' = [1, 6, 11] ∧
      ¬Shielded none 0 source.toList 1 ∧ Shielded none 0 source.toList 6 ∧
      ¬Shielded none 0 source.toList 11 ∧
      ∃ tokens, scan source none = .ok tokens ∧ lineBreaks tokens = [1, 11] := by
  intro source
  have feeds : source.toList.idxsOf '\n' = [1, 6, 11] := by decide +kernel
  have breaks : (scan source none).toOption.map lineBreaks = some [1, 11] := by decide +kernel
  have short : InBounds none source.toList := by
    cases found : scan source none with
    | error overflow =>
        rw [found] at breaks
        cases breaks
    | ok tokens => exact inBounds_of_scanFrom found
  obtain ⟨tokens, found, -, shielded, -⟩ := scan_lineBreaks short none
  rw [found] at breaks
  have breaks : lineBreaks tokens = [1, 11] := Option.some.inj breaks
  rw [feeds, breaks] at shielded
  refine ⟨short, feeds, ?_, ?_, ?_, tokens, found, breaks⟩
  · exact (shielded 1 (by decide)).mp (by decide)
  · exact not_not.mp ((shielded 6 (by decide)).not.mp (by decide))
  · exact (shielded 11 (by decide)).mp (by decide)

/-- A comment in an interpolation seems to open a literal with its quote, and the backslash at the
end of the line takes the template to the second line. -/
theorem lineBreaks_lost :
    let source := "\x60\x7b1 # \"\\\n+ 2 # \"\x7d\x60"
    source.toList.idxsOf '\n' = [8] ∧ (scan source none).toOption.map lineBreaks = some [] := by
  decide +kernel

end Token

end Offside
