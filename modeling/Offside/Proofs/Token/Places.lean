import Offside.Proofs.Token.Tiling

/-!
# Places of tokens

A token stands where reading the text before it leads, also a token of an interpolated expression,
however deep. The expressions are slices of the text, and their tokens are those that scanning finds
in the slice where it stands.
-/

namespace Offside

open Literal (Item slices)

/-! ## Tokens within tokens -/

/-- The segments of a string literal. -/
def Payload.parts : Payload → List Segment
  | .segments parts => parts
  | _ => []

mutual

/-- A token and the tokens of its interpolated expressions, to any depth. -/
def Token.nested : Token → List Token
  | ⟨kind, .segments segments, location⟩ =>
    ⟨kind, .segments segments, location⟩ :: Segment.nestedAll segments
  | token => [token]

/-- The tokens of the interpolated expressions of a literal, to any depth. -/
def Segment.nestedAll : List Segment → List Token
  | [] => []
  | .text _ :: rest => Segment.nestedAll rest
  | .expression tokens _ :: rest => Token.nestedAll tokens ++ Segment.nestedAll rest

/-- Tokens and those of their interpolated expressions, to any depth. -/
def Token.nestedAll : List Token → List Token
  | [] => []
  | token :: rest => Token.nested token ++ Token.nestedAll rest

end

namespace Token

theorem nested_eq (token : Token) :
    token.nested = token :: Segment.nestedAll token.payload.parts := by
  obtain ⟨kind, payload, location⟩ := token
  cases payload <;> simp [nested, Payload.parts, Segment.nestedAll]

theorem nestedAll_append (first second : List Token) :
    nestedAll (first ++ second) = nestedAll first ++ nestedAll second := by
  induction first with
  | nil => rfl
  | cons token rest ih => rw [List.cons_append, nestedAll, nestedAll, ih, List.append_assoc]

/-- What holds of some tokens and of those within them. -/
theorem forall_mem_nestedAll {holds : Token → Prop} {tokens : List Token} :
    (∀ token ∈ nestedAll tokens, holds token) ↔
      ∀ token ∈ tokens, ∀ inner ∈ token.nested, holds inner := by
  induction tokens with
  | nil => simp [nestedAll]
  | cons token rest ih => rw [nestedAll, List.forall_mem_append, List.forall_mem_cons, ih]

theorem forall_mem_segments {holds : Token → Prop} {segments : List Segment} :
    (∀ token ∈ Segment.nestedAll segments, holds token) ↔
      ∀ inner text, .expression inner text ∈ segments → ∀ token ∈ nestedAll inner, holds token := by
  induction segments with
  | nil => simp [Segment.nestedAll]
  | cons segment rest ih =>
      cases segment with
      | text content => simp [Segment.nestedAll, ih]
      | expression tokens source =>
          rw [Segment.nestedAll, List.forall_mem_append, ih]
          constructor
          · rintro ⟨here, later⟩ inner text (_ | ⟨_, member⟩)
            · exact here
            · exact later inner text member
          · exact fun each => ⟨each tokens source List.mem_cons_self,
              fun inner text member => each inner text (List.mem_cons_of_mem _ member)⟩

end Token

/-! ## Places in a text -/

namespace Location

/-- Reading a part of the text from `start` on leads to a place. -/
def Reached (start : Location) (whole : List Char) (location : Location) : Prop :=
  ∃ before, before <+: whole ∧ location = start.advanceAll before

/-- A place that is reached is that after as many characters as it says. -/
theorem Reached.eq {start location : Location} {whole : List Char}
    (reached : Reached start whole location) (first : start.offset = 0) :
    location.offset ≤ whole.length ∧ location = start.advanceAll (whole.take location.offset) := by
  obtain ⟨before, isPrefix, rfl⟩ := reached
  have offset : (start.advanceAll before).offset = before.length := by
    rw [advanceAll_offset, first, Nat.zero_add]
  rw [offset]
  exact ⟨isPrefix.length_le, by rw [← List.prefix_iff_eq_take.mp isPrefix]⟩

end Location

namespace Token

/-- An interpolated expression stands between braces in a text, and its tokens are those of its
source at that place. -/
def Stands (start : Location) (whole : List Char) (tokens : List Token) (source : String) : Prop :=
  ∃ before after, whole = before ++ '\x7b' :: (source.toList ++ '\x7d' :: after) ∧
    scanAt (start.advanceAll (before ++ ['\x7b'])) source = .ok tokens

/-- A token is where reading leads, and its interpolated expressions are parts of the text. -/
structure Placed (start : Location) (whole : List Char) (token : Token) : Prop where
  reached : start.Reached whole token.location
  stands : ∀ inner text, .expression inner text ∈ token.payload.parts →
    Stands start whole inner text

end Token

namespace Lexeme

/-- The token of a lexeme stands at its start or, if it is invalid, within it. Only a literal that
is closed has segments. -/
theorem place_token? {lexeme : Lexeme} {location : Location} {segments : List Segment}
    {token : Token} (found : lexeme.token? location segments = .ok (some token)) :
    (∃ before, before <+: lexeme.slice ∧ token.location = location.advanceAll before) ∧
      (token.payload.parts ≠ [] → token.payload.parts = segments ∧
        ∃ quote items, lexeme = .literal quote ⟨items, .closed⟩) := by
  have atStart : ∃ before, before <+: lexeme.slice ∧ location = location.advanceAll before :=
    ⟨[], List.nil_prefix, rfl⟩
  cases yields_of_token? found with
  | string quote items => exact ⟨atStart, fun _ => ⟨rfl, quote, items, rfl⟩⟩
  | broken quote items defect skipped =>
      refine ⟨?_, fun some => absurd rfl some⟩
      dsimp only
      split
      · exact atStart
      · refine ⟨quote :: slices items, ?_, rfl⟩
        exact (List.prefix_cons_inj quote).mpr (List.prefix_append _ _)
  | keyword =>
      refine ⟨atStart, fun some => absurd ?_ some⟩
      unfold Token.Kind.payload
      split <;> rfl
  | _ => exact ⟨atStart, fun some => absurd rfl some⟩

end Lexeme

/-! ## Scanning -/

namespace Token

section Scanning

variable {start : Location} {whole : List Char}

/-- The tokens of a literal's interpolated expressions are placed, and the expressions stand in the
text. -/
def SegmentsPlaced (start : Location) (whole : List Char) (segments : List Segment) : Prop :=
  ∀ inner text, .expression inner text ∈ segments →
    Stands start whole inner text ∧ ∀ token ∈ nestedAll inner, Placed start whole token

theorem segmentsPlaced_nil : SegmentsPlaced start whole [] := by simp [SegmentsPlaced]

theorem SegmentsPlaced.consText {segments : List Segment}
    (placed : SegmentsPlaced start whole segments) (c : Char) :
    SegmentsPlaced start whole (consText c segments) := by
  intro inner text member
  refine placed inner text ?_
  cases segments with
  | nil => simp [Token.consText] at member
  | cons segment rest => cases segment <;> simpa [Token.consText] using member

/-- The token of a lexeme in the text, if its segments are placed. -/
theorem placed_of_token? {lexeme : Lexeme} {before after : List Char} {segments : List Segment}
    {token : Token} (found : lexeme.token? (start.advanceAll before) segments = .ok (some token))
    (split : whole = before ++ (lexeme.slice ++ after))
    (placed : (∃ quote items, lexeme = .literal quote ⟨items, .closed⟩) →
      SegmentsPlaced start whole segments) :
    ∀ inner ∈ token.nested, Placed start whole inner := by
  obtain ⟨⟨within, isPrefix, place⟩, parts⟩ := Lexeme.place_token? found
  have placed : SegmentsPlaced start whole token.payload.parts := by
    by_cases none : token.payload.parts = []
    · rw [none]
      exact segmentsPlaced_nil
    · obtain ⟨same, closed⟩ := parts none
      rw [same]
      exact placed closed
  have reached : start.Reached whole token.location := by
    refine ⟨before ++ within, ?_, by rw [place, Location.advanceAll_append]⟩
    rw [split]
    exact (List.prefix_append_right_inj before).mpr (isPrefix.trans (List.prefix_append _ _))
  rw [nested_eq, List.forall_mem_cons]
  exact ⟨⟨reached, fun inner text member => (placed inner text member).1⟩,
    forall_mem_segments.mpr fun inner text member => (placed inner text member).2⟩

/-- What `placed_scanFrom` says of the items of a literal in the text. -/
def ItemsPlaced (start : Location) (whole : List Char) (location : Location) (items : List Item) :
    Prop :=
  ∀ {before after segments}, whole = before ++ (slices items ++ after) →
    location = start.advanceAll before → scanItems location items = .ok segments →
    SegmentsPlaced start whole segments

theorem itemsPlaced_cons {location : Location} {item : Item} {rest : List Item}
    (inner : ∀ source tokens before after, item = .interpolation source →
      location = start.advanceAll before →
      whole = before ++ '\x7b' :: (source ++ '\x7d' :: after) →
      scanFrom none (start.advanceAll (before ++ ['\x7b'])) source = .ok tokens →
      ∀ token ∈ nestedAll tokens, Placed start whole token)
    (later : ItemsPlaced start whole (location.advanceAll item.slice) rest) :
    ItemsPlaced start whole location (item :: rest) := by
  rintro before after segments split rfl found
  obtain ⟨others, othersFound, here⟩ := exists_of_scanItems_cons found
  have split' : whole = (before ++ item.slice) ++ (slices rest ++ after) := by
    simpa [Literal.slices_cons] using split
  have placed := later split' (Location.advanceAll_append ..).symm othersFound
  rcases here with ⟨source, tokens, rfl, tokensFound, rfl⟩ | ⟨-, c, rfl⟩
  · have split : whole = before ++ '\x7b' :: (source ++ '\x7d' :: (slices rest ++ after)) := by
      simpa [Item.slice] using split
    have there : (start.advanceAll before).advance '\x7b' = start.advanceAll (before ++ ['\x7b']) :=
      (Location.advanceAll_append start before ['\x7b']).symm
    rw [there] at tokensFound
    rintro inner' text (_ | ⟨_, member⟩)
    · refine ⟨⟨before, _, by rwa [String.toList_ofList], ?_⟩,
        inner source tokens before _ rfl rfl split tokensFound⟩
      rwa [scanAt, String.toList_ofList]
    · exact placed inner' text member
  · exact placed.consText c

/-- Every token of a part of the text is placed in the whole. -/
theorem placed_scanFrom {previous : Option Char} {chars before after : List Char}
    {tokens : List Token} (split : whole = before ++ (chars ++ after))
    (found : scanFrom previous (start.advanceAll before) chars = .ok tokens) :
    ∀ token ∈ nestedAll tokens, Placed start whole token := by
  refine scanFrom.induct
    (fun previous location chars => ∀ {before after tokens}, whole = before ++ (chars ++ after) →
      location = start.advanceAll before → scanFrom previous location chars = .ok tokens →
      ∀ token ∈ nestedAll tokens, Placed start whole token)
    (ItemsPlaced start whole) ?_ ?_ ?_ ?_ ?_ ?_ ?_ previous (start.advanceAll before) chars split
    rfl found
  · rintro previous location before after tokens split rfl found
    rw [scanFrom] at found
    obtain rfl := Except.ok.inj found
    refine forall_mem_nestedAll.mpr (List.forall_mem_singleton.mpr ?_)
    rw [nested_eq]
    refine List.forall_mem_singleton.mpr ⟨⟨before, ?_, rfl⟩, by simp [Payload.parts]⟩
    rw [split]
    exact List.prefix_append _ _
  · rintro previous location c rest lexeme items later before after tokens split rfl found
    obtain ⟨rest', cut, -⟩ := exists_after previous c rest
    obtain ⟨segments, token?, others, itemsFound, tokenFound, othersFound, rfl⟩ :=
      (scanFrom_cons_eq_ok cut).mp found
    have drop : (c :: rest).drop lexeme.slice.length = rest' := by
      rw [cut, List.drop_left]
    rw [drop] at later
    rw [cut, List.append_assoc] at split
    rw [nestedAll_append, List.forall_mem_append]
    refine ⟨?_, later (by rw [split, List.append_assoc]) (Location.advanceAll_append ..).symm
      othersFound⟩
    cases token? with
    | none => exact List.forall_mem_nil _
    | some token =>
        refine forall_mem_nestedAll.mpr (List.forall_mem_singleton.mpr ?_)
        refine placed_of_token? tokenFound split ?_
        rintro ⟨quote, body, closed⟩
        have isLiteral : lexeme = .literal quote ⟨body, .closed⟩ := closed
        rw [closed] at cut split itemsFound
        rw [isLiteral] at items
        obtain rfl : c = quote := (List.cons.inj cut).1
        have split : whole = (before ++ [c]) ++ (slices body ++ (c :: rest' ++ after)) := by
          simpa [Lexeme.slice, Literal.Body.slice, Literal.Ending.slice] using split
        exact items split (Location.advanceAll_append start before [c]).symm itemsFound
  · rintro location before after segments split here found
    rw [scanItems] at found
    obtain rfl := Except.ok.inj found
    exact segmentsPlaced_nil
  · intro location source rest first later
    refine itemsPlaced_cons ?_ later
    rintro _ tokens before after ⟨⟩ rfl split found
    have there : (start.advanceAll before).advance '\x7b' = start.advanceAll (before ++ ['\x7b']) :=
      (Location.advanceAll_append start before ['\x7b']).symm
    rw [there] at first
    exact first (by rw [split, List.append_assoc]; rfl) rfl found
  -- The other items hold no tokens.
  all_goals
    intros
    refine itemsPlaced_cons ?_ ‹_›
    rintro _ _ _ _ ⟨⟩

end Scanning

/-- Every token of a text, to any depth, is at the line and column that reading as many characters
as its offset says leads to. The source of an interpolated expression is a slice of the text between
braces, and its tokens are those of the slice where it stands. -/
theorem scan_placed {source : String} {file : Option String} {tokens : List Token}
    (found : scan source file = .ok tokens) {token : Token} (member : token ∈ nestedAll tokens) :
    token.location.offset ≤ source.length ∧
      token.location = (Location.start file).advanceAll (source.toList.take token.location.offset) ∧
      ∀ inner text, .expression inner text ∈ token.payload.parts → ∃ before after,
        source.toList = before ++ '\x7b' :: (text.toList ++ '\x7d' :: after) ∧
        scanAt ((Location.start file).advanceAll (before ++ ['\x7b'])) text = .ok inner := by
  have split : source.toList = [] ++ (source.toList ++ []) := (List.append_nil _).symm
  have placed := placed_scanFrom split found token member
  obtain ⟨bound, place⟩ := placed.reached.eq rfl
  exact ⟨bound, place, placed.stands⟩

/-- A name in a literal in an interpolation, after two tabs. -/
theorem scan_placed_inner :
    let source := "\t\x60a\x7b\x60\t\x7bx\x7d\x60\x7d\x60"
    ∃ tokens token, scan source none = .ok tokens ∧ token ∈ nestedAll tokens ∧
      token.kind = .identifier ∧ token.location = ⟨1, 14, 7, none⟩ ∧
      token.location =
        (Location.start none).advanceAll (source.toList.take token.location.offset) := by
  intro source
  have found : ((scan source none).toOption.bind fun tokens =>
      (nestedAll tokens).find? (·.kind = .identifier)).map (·.location) =
        some ⟨1, 14, 7, none⟩ := by
    decide +kernel
  obtain ⟨token, found, place⟩ := Option.map_eq_some_iff.mp found
  obtain ⟨tokens, scanned, found⟩ := Option.bind_eq_some_iff.mp found
  have scanned := Layout.eq_ok_of_toOption scanned
  have member := List.mem_of_find?_eq_some found
  exact ⟨tokens, token, scanned, member, by simpa using List.find?_some found, place,
    (scan_placed scanned member).2.1⟩

end Token

end Offside
