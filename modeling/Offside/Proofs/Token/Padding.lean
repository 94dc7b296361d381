import Offside.Proofs.Token.Places
import Offside.Proofs.Token.Relocation

/-!
# Comments and blank lines

Blanks and comments may be put where a line ends, and lines made only of them after it: the tokens
stay the same up to lines and offsets, but for more line breaks. A line ends where there is a token
for its line feed. A line feed in a string literal, where a backslash shields it, ends no line.
-/

namespace Offside

/-! ## Places up to lines and offsets -/

namespace Location

/-- A place in the first line at the same column. -/
def flatten (location : Location) : Location := { location with line := 1, offset := 0 }

/-- A line feed leads to the first column, whatever comes before it. -/
theorem advance_newline_advanceAll (location : Location) (chars : List Char) :
    (location.advanceAll chars).advance '\n' =
      below (chars.count '\n') chars.length (location.advance '\n') := by
  have line := advanceAll_line location chars
  have offset := advanceAll_offset location chars
  have file := advanceAll_file location chars
  simp only [advance, if_true, below, line, offset, file, mk.injEq, and_true, true_and]
  omega

end Location

/-! ## Texts without tokens -/

namespace Lexeme

/-- A text of blanks, comments and line feeds. -/
inductive Inert : List Char → Prop
  | nil : Inert []
  | blank {c : Char} {rest : List Char} (isBlank : isBlank c) (inert : Inert rest) :
      Inert (c :: rest)
  | newline {rest : List Char} (inert : Inert rest) : Inert ('\n' :: rest)
  | comment {text rest : List Char} (inLine : '\n' ∉ text) (ends : ∀ c ∈ rest.head?, c = '\n')
      (inert : Inert rest) : Inert ('#' :: (text ++ rest))

theorem Inert.stops {chars : List Char} (inert : Inert chars) {more : List Char}
    (stops : Stops more) :
    Stops (chars ++ more) := by
  cases inert with
  | nil => exact stops
  | blank isBlank => exact stops_cons (by simp [isStop, isBlank]) _
  | newline | comment => exact stops_cons (by decide) _

/-- A comment reaches up to the end of its line. -/
theorem read_comment_append {text more : List Char} (inLine : '\n' ∉ text)
    (ends : ∀ c ∈ more.head?, c = '\n') (previous : Option Char) :
    read previous '#' (text ++ more) = .comment text := by
  have last : ∀ c ∈ more.head?, decide (c ≠ '\n') = false := fun c here => by simp [ends c here]
  have whole : text.takeWhile (· ≠ '\n') = text := List.takeWhile_eq_self_iff.mpr fun c member => by
    simpa using ne_of_mem_of_not_mem member inLine
  rw [read_numberSign, takeWhile_append_of_head last, whole]

/-- A lexeme other than a comment is found again if what follows it is the same up to a place where
lexemes are stopped. -/
theorem read_congr {previous : Option Char} {c : Char} {tail after after' : List Char}
    (whole : ¬(read previous c (tail ++ after)).IsBroken) (notComment : c ≠ '#')
    (slice : (read previous c (tail ++ after)).slice = c :: tail)
    (same : ∃ shared more more', after = shared ++ more ∧ after' = shared ++ more' ∧
      Stops more ∧ Stops more') :
    read previous c (tail ++ after') = read previous c (tail ++ after) := by
  by_cases quoted : Literal.isQuote c
  · rw [read_quote quoted] at whole slice
    have body : (Literal.read c (tail ++ after)).slice c = tail := (List.cons.inj slice).2
    have closed := Literal.read_closed (not_not.mp whole) after'
    rw [body] at closed
    rw [read_quote quoted, read_quote quoted, closed]
  · obtain ⟨shared, more, more', rfl, rfl, stops, stops'⟩ := same
    have unquoted : Literal.isQuote c = false := by simpa using quoted
    rw [← List.append_assoc, ← List.append_assoc, read_append stops _ unquoted notComment,
      read_append stops' _ unquoted notComment]

/-- Only a line feed has a line break for its token. -/
theorem kind_ne_newline {previous : Option Char} {c : Char} {rest : List Char}
    {location : Location} {segments : List Segment} {token : Token} (inLine : c ≠ '\n')
    (found : (read previous c rest).token? location segments = .ok (some token)) :
    token.kind ≠ .newline := by
  intro isBreak
  obtain ⟨spelled, -⟩ := spelled_token? found
  obtain ⟨slice, -⟩ := spelled.fixed "\n" (by rw [isBreak]; rfl)
  obtain ⟨after, split, -⟩ := Token.exists_after previous c rest
  rw [slice] at split
  exact inLine (List.cons.inj split).1

end Lexeme

namespace Token

open Lexeme (Inert Stops isRaw)

/-! ## Texts with comments and blank lines inserted -/

/-- The second text is the first one with comments and blank lines inserted where a line ends. The
predicate says at which offsets a line feed ends a line, and the number is the offset at which the
texts start. -/
inductive Padded (ends : Nat → Prop) : Nat → List Char → List Char → Prop
  | last {offset : Nat} {filler : List Char} (inert : Inert filler) : Padded ends offset [] filler
  | keep {offset : Nat} {rest rest' : List Char} (c : Char)
      (later : Padded ends (offset + 1) rest rest') : Padded ends offset (c :: rest) (c :: rest')
  | line {offset : Nat} {filler rest rest' : List Char} (here : ends offset) (inert : Inert filler)
      (later : Padded ends (offset + 1) rest rest') :
      Padded ends offset ('\n' :: rest) (filler ++ '\n' :: rest')

namespace Padded

variable {ends : Nat → Prop} {offset : Nat} {rest rest' chars : List Char}

/-- The texts may go on in the same way. -/
theorem append_left (slice : List Char)
    (padded : Padded ends (offset + slice.length) rest rest') :
    Padded ends offset (slice ++ rest) (slice ++ rest') := by
  induction slice generalizing offset with
  | nil => exact padded
  | cons c slice ih =>
      refine .keep c (ih ?_)
      rwa [Nat.add_right_comm, Nat.add_assoc]

/-- Nothing is inserted where no line ends. -/
theorem eq_append {slice : List Char} (padded : Padded ends offset (slice ++ rest) chars)
    (within : ∀ place, offset ≤ place → place < offset + slice.length → ¬ends place) :
    ∃ rest', chars = slice ++ rest' ∧ Padded ends (offset + slice.length) rest rest' := by
  induction slice generalizing offset chars with
  | nil => exact ⟨chars, rfl, padded⟩
  | cons c slice ih =>
      have length : offset + 1 + slice.length = offset + (c :: slice).length := by
        rw [List.length_cons]
        omega
      cases padded with
      | keep _ later =>
          obtain ⟨rest', rfl, padded⟩ := ih later fun place lower upper =>
            within place (by omega) (by omega)
          exact ⟨rest', rfl, length ▸ padded⟩
      | line here => exact absurd here (within offset (Nat.le_refl _) (by simp))

/-- The texts are the same up to a place where lexemes are stopped. -/
theorem stops (padded : Padded ends offset rest rest') : ∃ shared more more',
    rest = shared ++ more ∧ rest' = shared ++ more' ∧ Stops more ∧ Stops more' := by
  induction padded with
  | last inert =>
      have none : Stops [] := fun c impossible => by cases impossible
      exact ⟨[], [], _, rfl, (List.append_nil _).symm, none, inert.stops none⟩
  | keep c _ ih =>
      obtain ⟨shared, more, more', rfl, rfl, stops⟩ := ih
      exact ⟨c :: shared, more, more', rfl, rfl, stops⟩
  | line here inert =>
      exact ⟨[], _, _, rfl, rfl, Lexeme.stops_cons (by decide) _,
        inert.stops (Lexeme.stops_cons (by decide) _)⟩

/-- What may stand before a line feed. -/
theorem exists_line (padded : Padded ends offset ('\n' :: rest) chars) :
    ∃ filler rest', Inert filler ∧ chars = filler ++ '\n' :: rest' ∧
      Padded ends (offset + 1) rest rest' := by
  cases padded with
  | keep _ later => exact ⟨[], _, .nil, rfl, later⟩
  | line _ inert later => exact ⟨_, _, inert, rfl, later⟩

/-- What may stand where a line ends. -/
theorem exists_filler (padded : Padded ends offset rest rest')
    (atEnd : ∀ c ∈ rest.head?, c = '\n') : ∃ filler more, rest' = filler ++ more ∧ Inert filler ∧
      ∀ c ∈ more.head?, c = '\n' := by
  cases padded with
  | last inert => exact ⟨_, [], (List.append_nil _).symm, inert, by simp⟩
  | keep c => exact ⟨[], _, rfl, .nil, atEnd⟩
  | line _ inert => exact ⟨_, _, rfl, inert, by simp⟩

end Padded

/-! ## Tokens with line breaks inserted -/

/-- Tokens up to the lines and offsets of their places. -/
def flat (tokens : List Token) : List Token := tokens.map (relocate Location.flatten)

@[simp]
theorem flat_cons (token : Token) (tokens : List Token) :
    flat (token :: tokens) = token.relocate Location.flatten :: flat tokens := rfl

@[simp]
theorem flat_append (first second : List Token) :
    flat (first ++ second) = flat first ++ flat second :=
  List.map_append

theorem forall_mem_flat (p : Kind → Prop) {tokens : List Token} :
    (∀ token ∈ flat tokens, p token.kind) ↔ ∀ token ∈ tokens, p token.kind := by
  simp [flat]

theorem flat_below (lines characters : Nat) (tokens : List Token) :
    flat (tokens.map (relocate (Location.below lines characters))) = flat tokens := by
  rw [flat, List.map_map]
  exact List.map_congr_left fun token _ => relocate_relocate _ _ token

/-- The second list has the tokens of the first one, with more line breaks where a line ends, and an
end of file of its own. -/
inductive Spaced : List Token → List Token → Prop
  | last {endOfFile endOfFile' : Token} (isEnd : endOfFile.kind = .endOfFile)
      (isEnd' : endOfFile'.kind = .endOfFile) : Spaced [endOfFile] [endOfFile']
  | keep {token : Token} {rest rest' : List Token} (inner : token.kind ≠ .endOfFile)
      (later : Spaced rest rest') : Spaced (token :: rest) (token :: rest')
  | line {first first' : Token} {rest rest' : List Token} (isBreak : first.kind = .newline)
      (isBreak' : first'.kind = .newline) (later : Spaced rest rest') :
      Spaced (first :: rest) (first' :: rest')
  | more {first : Token} {tokens tokens' : List Token} (isBreak : first.kind = .newline)
      (ends : ∀ token ∈ tokens.head?, token.kind = .newline ∨ token.kind = .endOfFile)
      (later : Spaced tokens tokens') : Spaced tokens (first :: tokens')

namespace Spaced

variable {tokens tokens' : List Token}

theorem append {before : List Token} (inner : ∀ token ∈ before, token.kind ≠ .endOfFile)
    (spaced : Spaced tokens tokens') : Spaced (before ++ tokens) (before ++ tokens') := by
  induction before with
  | nil => exact spaced
  | cons token before ih =>
      obtain ⟨here, later⟩ := List.forall_mem_cons.mp inner
      exact .keep here (ih later)

theorem breaks {breaks : List Token} (each : ∀ token ∈ breaks, token.kind = .newline)
    (ends : ∀ token ∈ tokens.head?, token.kind = .newline ∨ token.kind = .endOfFile)
    (spaced : Spaced tokens tokens') : Spaced tokens (breaks ++ tokens') := by
  induction breaks with
  | nil => exact spaced
  | cons token breaks ih =>
      obtain ⟨here, later⟩ := List.forall_mem_cons.mp each
      exact .more here ends (ih later)

end Spaced

/-! ## Scanning texts without tokens -/

/-- A lexeme without token is passed over. -/
theorem scanFrom_skip {previous : Option Char} {location : Location} {c : Char}
    {rest after : List Char} {lexeme : Lexeme} (read : Lexeme.read previous c rest = lexeme)
    (split : c :: rest = lexeme.slice ++ after) (items : lexeme.items = [])
    (none : lexeme.token? location [] = .ok none) :
    scanFrom previous location (c :: rest) =
      scanFrom lexeme.slice.getLast? (location.advanceAll lexeme.slice) after := by
  have drop : (c :: rest).drop lexeme.slice.length = after := by
    rw [split, List.drop_left]
  rw [scanFrom, read, drop, items, scanItems]
  change (lexeme.token? location [] >>= _) = _
  rw [none]
  cases scanFrom lexeme.slice.getLast? (location.advanceAll lexeme.slice) after <;> rfl

/-- The end of a line does not depend on what comes before it. -/
theorem scanFrom_of_ends {chars : List Char} (ends : ∀ c ∈ chars.head?, c = '\n')
    (previous previous' : Option Char) (location : Location) :
    scanFrom previous location chars = scanFrom previous' location chars := by
  cases chars with
  | nil => rw [scanFrom, scanFrom]
  | cons c rest =>
      obtain rfl := ends c rfl
      rw [scanFrom_newline, scanFrom_newline]

theorem scanFrom_blank {c : Char} (isBlank : Lexeme.isBlank c) (previous : Option Char)
    (location : Location) (rest : List Char) :
    scanFrom previous location (c :: rest) = scanFrom (some c) (location.advance c) rest := by
  have read : Lexeme.read previous c rest = .blank c := if_pos isBlank
  exact scanFrom_skip read rfl rfl rfl

theorem scanFrom_comment {text more : List Char} (inLine : '\n' ∉ text)
    (ends : ∀ c ∈ more.head?, c = '\n') (previous previous' : Option Char) (location : Location) :
    scanFrom previous location ('#' :: (text ++ more)) =
      scanFrom previous' (location.advanceAll ('#' :: text)) more := by
  rw [scanFrom_skip (Lexeme.read_comment_append inLine ends previous) rfl rfl rfl]
  exact scanFrom_of_ends ends _ _ _

/-- Lines that go on with the end of a line end with it. -/
theorem ends_append {first second : List Char} (ends : ∀ c ∈ first.head?, c = '\n')
    (ends' : ∀ c ∈ second.head?, c = '\n') : ∀ c ∈ (first ++ second).head?, c = '\n' := by
  cases first with
  | nil => exact ends'
  | cons => exact ends

/-- A text of blanks, comments and line feeds has no tokens but line breaks. -/
theorem scanFrom_inert {filler : List Char} (inert : Inert filler) {more : List Char}
    (ends : ∀ c ∈ more.head?, c = '\n') {location : Location} {tokens : List Token}
    (found : scanFrom none (location.advanceAll filler) more = .ok tokens)
    (previous : Option Char) :
    ∃ breaks : List Token, (∀ token ∈ breaks, token.kind = .newline) ∧
      scanFrom previous location (filler ++ more) = .ok (breaks ++ tokens) := by
  induction inert generalizing previous location with
  | nil => exact ⟨[], List.forall_mem_nil _, (scanFrom_of_ends ends previous ..).trans found⟩
  | blank isBlank _ ih =>
      rw [List.cons_append, scanFrom_blank isBlank]
      exact ih found _
  | newline _ ih =>
      obtain ⟨breaks, each, same⟩ := ih found none
      refine ⟨lineBreak location :: breaks, List.forall_mem_cons.mpr ⟨rfl, each⟩, ?_⟩
      rw [List.cons_append, scanFrom_newline, same]
      rfl
  | comment inLine ends' _ ih =>
      rw [List.cons_append, List.append_assoc,
        scanFrom_comment inLine (ends_append ends' ends) previous none]
      rw [← List.cons_append, Location.advanceAll_append] at found
      exact ih found none

/-- A comment takes in what is inserted before the end of its line. -/
theorem scanFrom_comment_inert {text filler more : List Char} (inLine : '\n' ∉ text)
    (inert : Inert filler) (ends : ∀ c ∈ more.head?, c = '\n') (previous previous' : Option Char)
    (location : Location) :
    scanFrom previous location ('#' :: (text ++ (filler ++ more))) =
      scanFrom previous' (location.advanceAll ('#' :: text)) (filler ++ more) := by
  induction inert generalizing text previous' with
  | nil => exact scanFrom_comment inLine ends ..
  | @blank c rest isBlank _ ih =>
      have other : '\n' ≠ c := by
        rintro rfl
        cases isBlank
      rw [List.cons_append, scanFrom_blank isBlank, List.append_cons,
        ih (by simp [inLine, other]) (some c), ← List.cons_append, Location.advanceAll_append]
      rfl
  | newline => exact scanFrom_comment inLine (by simp) ..
  | @comment text' rest inLine' ends' _ ih =>
      have ends := ends_append ends' ends
      have whole : '\n' ∉ text ++ '#' :: text' := by simp [inLine, inLine']
      have taken := scanFrom_comment whole ends previous none location
      rw [List.cons_append, List.append_assoc, scanFrom_comment inLine' ends previous' none,
        ← Location.advanceAll_append, ← List.cons_append]
      simpa using taken

/-- The end of a text with comments and blank lines. -/
theorem exists_scanFrom_last {filler : List Char} (inert : Inert filler) (previous : Option Char)
    (location place : Location) : ∃ tokens, scanFrom previous location filler = .ok tokens ∧
      Spaced (flat [inserted .endOfFile place]) (flat tokens) := by
  have found : scanFrom none (location.advanceAll filler) [] =
      .ok [inserted .endOfFile (location.advanceAll filler)] := by
    rw [scanFrom]
    rfl
  obtain ⟨breaks, each, scanned⟩ := scanFrom_inert inert (by simp) found previous
  rw [List.append_nil] at scanned
  refine ⟨_, scanned, ?_⟩
  rw [flat_append]
  exact .breaks ((forall_mem_flat (· = .newline)).mpr each) (by simp [inserted]) (.last rfl rfl)

/-- The end of a line with comments and blank lines, and what comes after it. -/
theorem exists_scanFrom_line {filler rest : List Char} (inert : Inert filler)
    (previous : Option Char) {location : Location} {tokens tokens' : List Token}
    (found : scanFrom none (location.advance '\n') rest = .ok tokens')
    (spaced : Spaced (flat tokens) (flat tokens')) :
    ∃ tokens'', scanFrom previous location (filler ++ '\n' :: rest) = .ok tokens'' ∧
      Spaced (flat (lineBreak location :: tokens)) (flat tokens'') := by
  -- The next line starts at the same column, further down.
  let move := Location.below (filler.count '\n') filler.length
  have moved : scanFrom none (move (location.advance '\n')) rest =
      List.map (relocate move) <$> scanFrom none (location.advance '\n') rest :=
    scanFrom_relocate (Location.steady_below ..) none _ rest
  have found : scanFrom none (location.advanceAll filler) ('\n' :: rest) =
      .ok (lineBreak (location.advanceAll filler) :: tokens'.map (relocate move)) := by
    rw [scanFrom_newline, Location.advance_newline_advanceAll, moved, found]
    rfl
  obtain ⟨breaks, each, scanned⟩ := scanFrom_inert inert (by simp) found previous
  refine ⟨_, scanned, ?_⟩
  rw [flat_append, flat_cons, flat_cons, flat_below]
  exact .breaks ((forall_mem_flat (· = .newline)).mpr each) (by simp [lineBreak])
    (.line rfl rfl spaced)

/-! ## Scanning texts with comments and blank lines -/

theorem exists_of_scanFrom_newline {previous : Option Char} {location : Location}
    {rest : List Char} {tokens : List Token}
    (found : scanFrom previous location ('\n' :: rest) = .ok tokens) :
    ∃ later, scanFrom none (location.advance '\n') rest = .ok later ∧
      tokens = lineBreak location :: later := by
  rw [scanFrom_newline] at found
  cases scanned : scanFrom none (location.advance '\n') rest with
  | error overflow =>
      rw [scanned] at found
      cases found
  | ok later =>
      rw [scanned] at found
      exact ⟨later, rfl, (Except.ok.inj found).symm⟩

theorem le_offset_of_scanFrom {previous : Option Char} {location : Location} {chars : List Char}
    {tokens : List Token} (found : scanFrom previous location chars = .ok tokens) :
    ∀ token ∈ tokens, location.offset ≤ token.location.offset := by
  intro token member
  have split : chars = [] ++ (chars ++ []) := (List.append_nil _).symm
  have placed := forall_mem_nestedAll.mp (placed_scanFrom split found) token member token
    (by simp [nested_eq])
  obtain ⟨before, -, place⟩ := placed.reached
  rw [place, Location.advanceAll_offset]
  exact Nat.le_add_right ..

/-- The tokens have a line break wherever a line ends, from an offset on. -/
def BreaksFrom (ends : Nat → Prop) (offset : Nat) (tokens : List Token) : Prop :=
  ∀ place, ends place → offset ≤ place →
    ∃ token ∈ tokens, token.kind = .newline ∧ token.location.offset = place

namespace BreaksFrom

variable {ends : Nat → Prop} {location : Location} {later : List Token}

/-- The first line break is not one of those after it. -/
theorem newline (breaks : BreaksFrom ends location.offset (lineBreak location :: later)) :
    BreaksFrom ends (location.offset + 1) later := by
  intro place here lower
  obtain ⟨token, member, isBreak, same⟩ := breaks place here (by omega)
  rcases List.mem_cons.mp member with rfl | inLater
  · have : location.offset = place := same
    omega
  · exact ⟨token, inLater, isBreak, same⟩

/-- No line ends within a lexeme other than a line feed. -/
theorem lexeme {previous previous' : Option Char} {c : Char} {rest slice after : List Char}
    {segments : List Segment} {token? : Option Token} (inLine : c ≠ '\n')
    (tokenFound : (Lexeme.read previous c rest).token? location segments = .ok token?)
    (laterFound : scanFrom previous' (location.advanceAll slice) after = .ok later)
    (breaks : BreaksFrom ends location.offset (token?.toList ++ later)) :
    (∀ place, location.offset ≤ place → place < location.offset + slice.length → ¬ends place) ∧
      BreaksFrom ends (location.advanceAll slice).offset later := by
  have inLater : BreaksFrom ends location.offset later := by
    intro place here lower
    obtain ⟨token, member, isBreak, same⟩ := breaks place here lower
    rcases List.mem_append.mp member with isFirst | inLater
    · obtain rfl := Option.mem_toList.mp isFirst
      exact absurd isBreak (Lexeme.kind_ne_newline inLine tokenFound)
    · exact ⟨token, inLater, isBreak, same⟩
  have offset := Location.advanceAll_offset location slice
  refine ⟨fun place lower upper here => ?_, fun place here lower => ?_⟩
  · obtain ⟨token, member, -, same⟩ := inLater place here lower
    have := le_offset_of_scanFrom laterFound token member
    omega
  · exact inLater place here (by omega)

end BreaksFrom

/-- A lexeme is found again, and what comes after it is scanned from there. -/
theorem scanFrom_again {previous : Option Char} {location : Location} {c : Char}
    {rest after after' : List Char}
    (split : c :: rest = (Lexeme.read previous c rest).slice ++ after)
    (whole : ¬(Lexeme.read previous c rest).IsBroken) {segments : List Segment}
    {token? : Option Token} {later : List Token}
    (itemsFound : scanItems (location.advance c) (Lexeme.read previous c rest).items = .ok segments)
    (tokenFound : (Lexeme.read previous c rest).token? location segments = .ok token?)
    {ends : Nat → Prop} {offset : Nat} (padded : Padded ends offset after after')
    (found : scanFrom (Lexeme.read previous c rest).slice.getLast?
      (location.advanceAll (Lexeme.read previous c rest).slice) after' = .ok later) :
    scanFrom previous location ((Lexeme.read previous c rest).slice ++ after') =
      .ok (token?.toList ++ later) := by
  by_cases comment : c = '#'
  · subst comment
    have read := Lexeme.read_numberSign previous rest
    rw [read] at split tokenFound found ⊢
    obtain rfl := Except.ok.inj tokenFound
    obtain ⟨filler, more, rfl, inert, ends⟩ :=
      padded.exists_filler (Lexeme.head?_after_comment read split)
    have inLine : '\n' ∉ rest.takeWhile (· ≠ '\n') := fun member => by
      simpa using List.mem_takeWhile_imp member
    exact (scanFrom_comment_inert inLine inert ends previous _ location).trans found
  · obtain ⟨tail, slice⟩ : ∃ tail, (Lexeme.read previous c rest).slice = c :: tail := by
      cases slice : (Lexeme.read previous c rest).slice with
      | nil => exact absurd slice (Lexeme.read_slice_ne_nil previous c rest)
      | cons d tail =>
          rw [slice] at split
          exact ⟨tail, by rw [(List.cons.inj split).1]⟩
    rw [slice, List.cons_append, List.cons.injEq] at split
    obtain ⟨-, rfl⟩ := split
    have same := Lexeme.read_congr whole comment slice padded.stops
    rw [slice, List.cons_append]
    refine (scanFrom_cons_eq_ok (by rw [same, slice, List.cons_append])).mpr ?_
    rw [same]
    exact ⟨segments, token?, later, itemsFound, tokenFound, found, rfl⟩

/-- Comments and blank lines change nothing in the tokens but lines and offsets, and they add line
breaks where a line ends. -/
theorem scanFrom_padded {previous : Option Char} {location : Location} {chars chars' : List Char}
    {tokens : List Token} (found : scanFrom previous location chars = .ok tokens)
    (valid : ∀ token ∈ tokens, token.kind ≠ .invalid) {ends : Nat → Prop}
    (breaks : BreaksFrom ends location.offset tokens)
    (padded : Padded ends location.offset chars chars') :
    ∃ tokens', scanFrom previous location chars' = .ok tokens' ∧
      Spaced (flat tokens) (flat tokens') := by
  match chars with
  | [] =>
      rw [scanFrom] at found
      obtain rfl := Except.ok.inj found
      cases padded with
      | last inert => exact exists_scanFrom_last inert previous location location
  | c :: rest =>
      by_cases isBreak : c = '\n'
      · subst isBreak
        obtain ⟨later, laterFound, rfl⟩ := exists_of_scanFrom_newline found
        obtain ⟨filler, rest', inert, rfl, paddedLater⟩ := padded.exists_line
        have breaksLater := breaks.newline
        rw [← location.advance_offset '\n'] at breaksLater paddedLater
        obtain ⟨later', scanned, spaced⟩ := scanFrom_padded laterFound
          (List.forall_mem_cons.mp valid).2 breaksLater paddedLater
        exact exists_scanFrom_line inert previous scanned spaced
      obtain ⟨after, split, shorter⟩ := exists_after previous c rest
      obtain ⟨segments, token?, later, itemsFound, tokenFound, laterFound, rfl⟩ :=
        (scanFrom_cons_eq_ok split).mp found
      obtain ⟨firstValid, laterValid⟩ := List.forall_mem_append.mp valid
      obtain ⟨within, breaksLater⟩ := breaks.lexeme isBreak tokenFound laterFound
      rw [split] at padded
      obtain ⟨after', rfl, paddedLater⟩ := padded.eq_append within
      rw [← Location.advanceAll_offset] at paddedLater
      obtain ⟨later', scanned, spaced⟩ :=
        scanFrom_padded laterFound laterValid breaksLater paddedLater
      refine ⟨token?.toList ++ later', ?_, ?_⟩
      · have whole := Lexeme.not_isBroken tokenFound fun token member =>
          firstValid token (Option.mem_toList.mpr member)
        exact scanFrom_again split whole itemsFound tokenFound paddedLater scanned
      · rw [flat_append, flat_append]
        refine .append ((forall_mem_flat (· ≠ .endOfFile)).mpr fun token member isEnd => ?_) spaced
        obtain rfl := Option.mem_toList.mp member
        have raw := Lexeme.isRaw_token? tokenFound
        simp [isRaw, isEnd] at raw
termination_by chars.length
decreasing_by
  · simp
  · exact shorter

end Token

end Offside
