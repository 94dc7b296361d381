import Offside.Proofs.Layout.WellFormed
import Offside.Proofs.Token.Lexeme
import Mathlib.Logic.Basic

/-!
# Moving a source text

A text can be read as part of another text or of another file: its places move then. A move that
agrees with the reading of characters moves the tokens of the text and changes nothing else in them.
-/

namespace Offside

namespace Location

/-- A move of places that keeps columns and agrees with the reading of characters. -/
structure Steady (move : Location → Location) : Prop where
  column : ∀ location, (move location).column = location.column
  advance : ∀ location c, move (location.advance c) = (move location).advance c

theorem Steady.advanceAll {move : Location → Location} (steady : Steady move) (location : Location)
    (chars : List Char) : move (location.advanceAll chars) = (move location).advanceAll chars := by
  induction chars generalizing location with
  | nil => rfl
  | cons c rest ih => rw [advanceAll_cons, ih, steady.advance, advanceAll_cons]

/-- A place in another file. -/
def inFile (file : Option String) (location : Location) : Location := { location with file }

theorem steady_inFile (file : Option String) : Steady (inFile file) where
  column _ := rfl
  advance location c := by
    unfold advance
    split
    · rfl
    · split <;> rfl

/-- A place after so many more lines and characters. -/
def below (lines : Nat) (characters : Nat) (location : Location) : Location :=
  { location with line := location.line + lines, offset := location.offset + characters }

theorem steady_below (lines characters : Nat) : Steady (below lines characters) where
  column _ := rfl
  advance location c := by
    simp only [advance, below]
    split
    · simp only [mk.injEq, and_true, true_and]
      omega
    · split <;> simp only [mk.injEq, and_true, true_and] <;> omega

end Location

/-! ## Tokens with other places -/

mutual

/-- A token with all of its places changed, those of interpolated expressions included. -/
def Token.relocate (move : Location → Location) : Token → Token
  | ⟨kind, payload, location⟩ => ⟨kind, payload.relocate move, move location⟩

/-- A payload with all of its places changed. -/
def Payload.relocate (move : Location → Location) : Payload → Payload
  | .segments segments => .segments (Segment.relocateAll move segments)
  | .absent => .absent
  | .text content => .text content
  | .integer value => .integer value
  | .float value => .float value
  | .boolean value => .boolean value

/-- Segments with all of their places changed. -/
def Segment.relocateAll (move : Location → Location) : List Segment → List Segment
  | [] => []
  | .text content :: rest => .text content :: Segment.relocateAll move rest
  | .expression tokens source :: rest =>
    .expression (Token.relocateAll move tokens) source :: Segment.relocateAll move rest

/-- Several tokens with all of their places changed. -/
def Token.relocateAll (move : Location → Location) : List Token → List Token
  | [] => []
  | token :: rest => Token.relocate move token :: Token.relocateAll move rest

end

namespace Token

variable (move : Location → Location)

@[simp]
theorem relocateAll_eq_map (tokens : List Token) :
    relocateAll move tokens = tokens.map (relocate move) := by
  induction tokens with
  | nil => rfl
  | cons token rest ih => simp [relocateAll, ih]

@[simp]
theorem relocate_mk (kind : Kind) (payload : Payload) (location : Location) :
    relocate move ⟨kind, payload, location⟩ = ⟨kind, payload.relocate move, move location⟩ := by
  rw [relocate]

@[simp]
theorem relocate_kind (token : Token) : (token.relocate move).kind = token.kind := by
  cases token
  simp

@[simp]
theorem relocate_location (token : Token) :
    (token.relocate move).location = move token.location := by
  cases token
  simp

@[simp]
theorem relocate_payload (token : Token) :
    (token.relocate move).payload = token.payload.relocate move := by
  cases token
  simp

@[simp]
theorem relocate_inserted (kind : Kind) (location : Location) :
    (inserted kind location).relocate move = inserted kind (move location) := by
  simp [inserted, Payload.relocate]

theorem relocateAll_consText (c : Char) (segments : List Segment) :
    Segment.relocateAll move (consText c segments) =
      consText c (Segment.relocateAll move segments) := by
  cases segments with
  | nil => simp [consText, Segment.relocateAll]
  | cons segment rest => cases segment <;> simp [consText, Segment.relocateAll]

theorem map_relocateAll_consText {ε : Type} (c : Char) (segments : Except ε (List Segment)) :
    (Segment.relocateAll move <$> segments).map (consText c) =
      Segment.relocateAll move <$> segments.map (consText c) := by
  cases segments with
  | error => rfl
  | ok segments => exact congrArg Except.ok (relocateAll_consText move c segments).symm

mutual

theorem relocate_id : ∀ token : Token, token.relocate id = token
  | ⟨kind, payload, location⟩ => by rw [relocate_mk, payload_relocate_id payload, id]

theorem payload_relocate_id : ∀ payload : Payload, payload.relocate id = payload
  | .segments segments => by rw [Payload.relocate, segments_relocate_id segments]
  | .absent | .text _ | .integer _ | .float _ | .boolean _ => by rw [Payload.relocate]

theorem segments_relocate_id : ∀ segments : List Segment,
    Segment.relocateAll id segments = segments
  | [] => rfl
  | .text content :: rest => by rw [Segment.relocateAll, segments_relocate_id rest]
  | .expression tokens source :: rest => by
      rw [Segment.relocateAll, segments_relocate_id rest, tokens_relocate_id tokens]

theorem tokens_relocate_id : ∀ tokens : List Token, relocateAll id tokens = tokens
  | [] => rfl
  | token :: rest => by rw [relocateAll, relocate_id token, tokens_relocate_id rest]

end

section

variable (move' : Location → Location)

mutual

theorem relocate_relocate : ∀ token : Token,
    (token.relocate move).relocate move' = token.relocate (move' ∘ move)
  | ⟨kind, payload, location⟩ => by
      simp only [relocate_mk, payload_relocate_relocate payload, Function.comp_apply]

theorem payload_relocate_relocate : ∀ payload : Payload,
    (payload.relocate move).relocate move' = payload.relocate (move' ∘ move)
  | .segments segments => by
      simp only [Payload.relocate, segments_relocate_relocate segments]
  | .absent | .text _ | .integer _ | .float _ | .boolean _ => by simp only [Payload.relocate]

theorem segments_relocate_relocate : ∀ segments : List Segment,
    Segment.relocateAll move' (Segment.relocateAll move segments) =
      Segment.relocateAll (move' ∘ move) segments
  | [] => rfl
  | .text content :: rest => by simp only [Segment.relocateAll, segments_relocate_relocate rest]
  | .expression tokens source :: rest => by
      simp only [Segment.relocateAll, segments_relocate_relocate rest,
        tokens_relocate_relocate tokens]

theorem tokens_relocate_relocate : ∀ tokens : List Token,
    relocateAll move' (relocateAll move tokens) = relocateAll (move' ∘ move) tokens
  | [] => rfl
  | token :: rest => by
      simp only [relocateAll, relocate_relocate token, tokens_relocate_relocate rest]

end

end

/-! ## Scanning at another place -/

variable {move} (steady : Location.Steady move)

include steady

/-- The token of a lexeme moves with it. -/
theorem token?_relocate (location : Location) (segments : List Segment) (lexeme : Lexeme) :
    lexeme.token? (move location) (Segment.relocateAll move segments) =
      Option.map (relocate move) <$> lexeme.token? location segments := by
  cases lexeme with
  | blank | comment => rfl
  | newline | operator | stray =>
      simp [Lexeme.token?, Functor.map, Except.map, Payload.relocate]
  | word letters =>
      simp only [Lexeme.token?, Functor.map, Except.map, Lexeme.wordToken]
      split <;> simp [Payload.relocate]
  | number whole fraction =>
      simp only [Lexeme.token?, Lexeme.numberToken]
      split
      · split <;> simp [Functor.map, Except.map, Payload.relocate]
      · simp [Functor.map, Except.map, Payload.relocate]
  | literal quote body =>
      simp only [Lexeme.token?, Lexeme.literalToken, Functor.map, Except.map]
      split
      · simp [Payload.relocate]
      · split <;> simp [Payload.relocate, steady.advanceAll, steady.advance]

/-- A text that moves has the same tokens at other places. -/
theorem scanFrom_relocate (previous : Option Char) (location : Location) (chars : List Char) :
    scanFrom previous (move location) chars =
      List.map (relocate move) <$> scanFrom previous location chars := by
  refine scanFrom.induct
    (fun previous location chars => scanFrom previous (move location) chars =
      List.map (relocate move) <$> scanFrom previous location chars)
    (fun location items => scanItems (move location) items =
      Segment.relocateAll move <$> scanItems location items)
    ?_ ?_ ?_ ?_ ?_ ?_ ?_ previous location chars
  · intro previous location
    simp [scanFrom, Functor.map, Except.map, Payload.relocate]
  · intro previous location c rest lexeme items later
    rw [steady.advance] at items
    rw [steady.advanceAll] at later
    rw [scanFrom, scanFrom, items]
    simp only [bind_map_left, map_bind, map_pure, token?_relocate steady]
    change _ = _ >>= fun segments => _
    simp only [later, bind_map_left, List.map_append, Option.toList_map, lexeme]
  · intro location
    simp [scanItems, Functor.map, Except.map, Segment.relocateAll]
  · intro location source rest tokens later
    rw [steady.advance] at tokens
    rw [steady.advanceAll] at later
    rw [scanItems, scanItems, tokens, later]
    simp [Segment.relocateAll]
  -- The other items are characters of the text before the next interpolation.
  · intro location c rest later
    rw [scanItems, scanItems, ← steady.advanceAll, later]
    exact map_relocateAll_consText move c _
  · intro location c denoted rest later
    rw [scanItems, scanItems, ← steady.advanceAll, later]
    exact map_relocateAll_consText move denoted _
  · intro location c rest later
    rw [scanItems, scanItems, ← steady.advanceAll, later]
    exact map_relocateAll_consText move c _

end Token

/-! ## What scanning makes sure of -/

open Layout (exists_of_bind_eq_ok)

/-- A place counted from line one and column one. -/
structure Location.Counted (location : Location) : Prop where
  line : 1 ≤ location.line
  column : 1 ≤ location.column

namespace Location.Counted

theorem start (file : Option String) : (Location.start file).Counted :=
  ⟨Int.le_refl 1, Int.le_refl 1⟩

theorem advance {location : Location} (counted : location.Counted) (c : Char) :
    (location.advance c).Counted := by
  obtain ⟨line, column⟩ := counted
  unfold Location.advance
  split
  · exact ⟨by dsimp only; omega, Int.le_refl 1⟩
  · split
    · refine ⟨line, ?_⟩
      simp only [tabWidth]
      omega
    · exact ⟨line, by dsimp only; omega⟩

theorem advanceAll {location : Location} (counted : location.Counted) (chars : List Char) :
    (location.advanceAll chars).Counted := by
  induction chars generalizing location with
  | nil => exact counted
  | cons c rest ih => exact ih (counted.advance c)

end Location.Counted

/-- The tokens of an interpolated expression. -/
def Segment.tokens? : Segment → Option (List Token)
  | .expression tokens _ => some tokens
  | .text _ => none

/-- The tokens of the interpolated expressions of a payload. -/
def Payload.interpolations : Payload → List (List Token)
  | .segments parts => parts.filterMap Segment.tokens?
  | _ => []

theorem relocateAll_of_tokens?_eq_nil (move : Location → Location) {segments : List Segment}
    (none : segments.filterMap Segment.tokens? = []) :
    Segment.relocateAll move segments = segments := by
  induction segments with
  | nil => rfl
  | cons segment rest ih =>
      cases segment with
      | text content => simpa [Segment.relocateAll] using ih none
      | expression tokens source => simp [Segment.tokens?] at none

/-- A payload without interpolated expressions has no places. -/
theorem Payload.relocate_eq_self (move : Location → Location) {payload : Payload}
    (none : payload.interpolations = []) : payload.relocate move = payload := by
  cases payload with
  | segments parts => simp [relocate, relocateAll_of_tokens?_eq_nil move none]
  | _ => rfl

namespace Token

/-- A token as scanning makes it: its place is counted from one, and only a string literal has
interpolated expressions, whose tokens are of the same sort and reach up to an end of file. -/
inductive Scanned : Token → Prop
  | intro {token : Token} (counted : token.location.Counted)
    (literal : token.payload.interpolations ≠ [] → token.kind = .string)
    (ended : ∀ inner ∈ token.payload.interpolations, ∃ last ∈ inner, last.kind = .endOfFile)
    (each : ∀ inner ∈ token.payload.interpolations, ∀ token ∈ inner, Scanned token) : Scanned token

/-- Tokens as scanning makes them, up to an end of file. -/
structure Complete (tokens : List Token) : Prop where
  ended : ∃ last ∈ tokens, last.kind = .endOfFile
  each : ∀ token ∈ tokens, token.Scanned

namespace Scanned

variable {token : Token}

theorem counted (scanned : token.Scanned) : token.location.Counted := by
  cases scanned with
  | intro counted => exact counted

/-- The tokens of an interpolated expression reach up to an end of file. -/
theorem complete (scanned : token.Scanned) {inner : List Token}
    (member : inner ∈ token.payload.interpolations) : Complete inner := by
  cases scanned with
  | intro _ _ ended each => exact ⟨ended inner member, each inner member⟩

/-- A token other than a string literal keeps its payload when it moves. -/
theorem relocate_payload (scanned : token.Scanned) (other : token.kind ≠ .string)
    (move : Location → Location) : token.payload.relocate move = token.payload := by
  cases scanned with
  | intro _ literal =>
      have none : token.payload.interpolations = [] := not_imp_comm.mp literal other
      exact Payload.relocate_eq_self move none

end Scanned

/-- A token without segments is as scanning makes it wherever its place is counted. -/
theorem scanned_of_interpolations_eq_nil {token : Token} (counted : token.location.Counted)
    (none : token.payload.interpolations = []) : token.Scanned :=
  .intro counted (fun some => absurd none some) (by simp [none]) (by simp [none])

theorem interpolations_consText (c : Char) (segments : List Segment) :
    (Payload.segments (consText c segments)).interpolations =
      (Payload.segments segments).interpolations := by
  cases segments with
  | nil => rfl
  | cons segment rest => cases segment <;> rfl

/-- Text in front of segments changes nothing in their interpolated expressions. -/
theorem complete_of_map_consText {ε : Type} {outcome : Except ε (List Segment)}
    (complete : ∀ {segments}, outcome = .ok segments →
      ∀ inner ∈ (Payload.segments segments).interpolations, Complete inner)
    {c : Char} {segments : List Segment} (found : outcome.map (consText c) = .ok segments) :
    ∀ inner ∈ (Payload.segments segments).interpolations, Complete inner := by
  cases outcome with
  | error => cases found
  | ok others =>
      obtain rfl := Except.ok.inj found
      rw [interpolations_consText]
      exact complete rfl

/-- The token of a lexeme at a counted place. -/
theorem scanned_token? {location : Location} (counted : location.Counted) {segments : List Segment}
    (complete : ∀ inner ∈ (Payload.segments segments).interpolations, Complete inner)
    {lexeme : Lexeme} {token : Token} (found : lexeme.token? location segments = .ok (some token)) :
    token.Scanned := by
  cases Lexeme.yields_of_token? found with
  | string =>
      exact .intro counted (fun _ => rfl) (fun inner member => (complete inner member).ended)
        fun inner member => (complete inner member).each
  | broken =>
      refine scanned_of_interpolations_eq_nil ?_ rfl
      dsimp only
      split
      · exact counted
      · exact counted.advanceAll _
  | keyword =>
      refine scanned_of_interpolations_eq_nil counted ?_
      unfold Kind.payload
      split <;> rfl
  | _ => exact scanned_of_interpolations_eq_nil counted rfl

/-- The tokens of a text at a counted place. -/
theorem complete_scanFrom {previous : Option Char} {location : Location} {chars : List Char}
    (counted : location.Counted) {tokens : List Token}
    (found : scanFrom previous location chars = .ok tokens) : Complete tokens := by
  revert counted tokens
  refine scanFrom.induct
    (fun previous location chars => location.Counted → ∀ {tokens},
      scanFrom previous location chars = .ok tokens → Complete tokens)
    (fun location items => location.Counted → ∀ {segments},
      scanItems location items = .ok segments →
      ∀ inner ∈ (Payload.segments segments).interpolations, Complete inner)
    ?_ ?_ ?_ ?_ ?_ ?_ ?_ previous location chars
  · intro previous location counted tokens found
    rw [scanFrom] at found
    obtain rfl := Except.ok.inj found
    exact ⟨⟨_, List.mem_singleton_self _, rfl⟩,
      by simpa using scanned_of_interpolations_eq_nil counted rfl⟩
  · intro previous location c rest lexeme items later counted tokens found
    rw [scanFrom] at found
    obtain ⟨segments, itemsFound, found⟩ := exists_of_bind_eq_ok found
    obtain ⟨token?, tokenFound, found⟩ := exists_of_bind_eq_ok found
    obtain ⟨others, othersFound, found⟩ := exists_of_bind_eq_ok found
    obtain rfl := Except.ok.inj found
    have complete := later (counted.advanceAll _) othersFound
    refine ⟨?_, ?_⟩
    · obtain ⟨last, member, isEnd⟩ := complete.ended
      exact ⟨last, List.mem_append_right _ member, isEnd⟩
    · refine List.forall_mem_append.mpr ⟨fun token member => ?_, complete.each⟩
      obtain rfl := Option.mem_toList.mp member
      exact scanned_token? counted (items (counted.advance c) itemsFound) tokenFound
  · intro location _ segments found
    rw [scanItems] at found
    obtain rfl := Except.ok.inj found
    simp [Payload.interpolations]
  · intro location source rest first later counted segments found
    rw [scanItems] at found
    obtain ⟨tokens, tokensFound, found⟩ := exists_of_bind_eq_ok found
    obtain ⟨others, othersFound, found⟩ := exists_of_bind_eq_ok found
    obtain rfl := Except.ok.inj found
    have here := first (counted.advance _) tokensFound
    have there := later (counted.advanceAll _) othersFound
    rintro inner (_ | ⟨_, member⟩)
    · exact here
    · exact there inner member
  · intro location c rest later counted segments found
    rw [scanItems] at found
    exact complete_of_map_consText (later (counted.advanceAll _)) found
  · intro location c denoted rest later counted segments found
    rw [scanItems] at found
    exact complete_of_map_consText (later (counted.advanceAll _)) found
  · intro location c rest later counted segments found
    rw [scanItems] at found
    exact complete_of_map_consText (later (counted.advanceAll _)) found

end Token

end Offside
