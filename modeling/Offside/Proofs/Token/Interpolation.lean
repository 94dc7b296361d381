import Offside.Proofs.Token.Display
import Offside.Proofs.Token.Invalid

/-!
# Texts in interpolations

The end of an interpolation is looked for before its source is scanned, with a count of open braces
and one quote at a time. Inside a template this reads the sources of interpolations as text, and the
text of a template inside such a source as code. So a text without invalid tokens can stand between
the braces of an interpolation, and is scanned there as on its own, if what its own templates
interpolate reads the same both ways; a template in there with an apostrophe in its text does not.
-/

namespace Offside

open Literal (Item backquote isQuote slices)

/-! ## Literals as they are read -/

namespace Literal

/-- An item as it is read between quotes `quote`. -/
inductive Item.Found (quote : Char) : Item → Prop where
  | plain {c : Char} : c ≠ '\n' → c ≠ quote → c ≠ '\\' → Found quote (.plain c)
  | escape (c denoted : Char) : Found quote (.escape c denoted)
  | brace {c : Char} : quote = backquote → c = '\x7b' ∨ c = '\x7d' → Found quote (.brace c)
  | interpolation {chars source : List Char} : quote = backquote →
      Literal.interpolation 0 none chars = (source, true) → Found quote (.interpolation source)

theorem Item.Stands.found {quote : Char} {item : Item} (stands : item.Stands quote) :
    item.Found quote := by
  cases stands with
  | plain inLine unquoted unescaped _ => exact .plain inLine unquoted unescaped
  | escape => exact .escape _ _
  | brace isTemplate isBrace => exact .brace isTemplate isBrace
  | interpolation isTemplate passes => exact .interpolation isTemplate (passes.closed [])

theorem found_read (quote : Char) (chars : List Char) :
    ∀ item ∈ (read quote chars).items, item.Found quote := by
  obtain ⟨rest, -, stand, -⟩ := stands_read quote chars
  exact fun item member => (stand item member).found

/-- The characters of an item that are no source of an expression. -/
def Item.text : Item → List Char
  | .interpolation _ => []
  | item => item.slice

/-- The source of an interpolation is passed over inside a template, up to its closing brace. -/
def ReadsAsText (source : List Char) : Prop :=
  ∀ depth, Passes (source ++ ['\x7d']) depth (some backquote) depth (some backquote)

/-- The items of a literal are passed over inside of it. -/
theorem passes_slices_inside {quote : Char} {items : List Item}
    (found : ∀ item ∈ items, item.Found quote)
    (asText : ∀ source, .interpolation source ∈ items → ReadsAsText source) (depth : Nat) :
    Passes (slices items) depth (some quote) depth (some quote) := by
  induction items with
  | nil => exact .nil _ _
  | cons item rest ih =>
      obtain ⟨here, later⟩ := List.forall_mem_cons.mp found
      have passes : Passes item.slice depth (some quote) depth (some quote) := by
        cases here with
        | plain inLine other unshielded => exact passes_inside inLine unshielded other depth
        | escape c denoted => exact passes_shielded quote c depth
        | brace isTemplate isBrace =>
            subst isTemplate
            rcases isBrace with rfl | rfl
            all_goals
              exact (passes_inside (by decide) (by decide) (by decide) depth).append
                (passes_inside (by decide) (by decide) (by decide) depth)
        | interpolation isTemplate =>
            subst isTemplate
            exact (passes_inside (by decide) (by decide) (by decide) depth).append
              (asText _ List.mem_cons_self depth)
      exact passes.append
        (ih later fun source member => asText source (List.mem_cons_of_mem _ member))

/-- The items of a template are passed over outside of literals, if there are no quotes in its text
and as many braces as are opened there are closed. -/
theorem passes_slices_outside {quote : Char} {items : List Item} {depth depth' : Nat}
    (found : ∀ item ∈ items, item.Found quote)
    (unquoted : ∀ c ∈ items.flatMap Item.text, c ≠ '\n' ∧ isQuote c = false)
    (nested : nesting depth (items.flatMap Item.text) = some depth') (more : Nat) :
    Passes (slices items) (depth + more) none (depth' + more) none := by
  induction items generalizing depth with
  | nil =>
      obtain rfl := Option.some.inj nested
      exact .nil _ _
  | cons item rest ih =>
      obtain ⟨here, later⟩ := List.forall_mem_cons.mp found
      rw [List.flatMap_cons] at nested unquoted
      obtain ⟨unquoted, unquoted'⟩ := List.forall_mem_append.mp unquoted
      obtain ⟨between, first, second⟩ := nesting_append nested
      refine Passes.append ?_ (ih later unquoted' second)
      cases here with
      | interpolation _ same =>
          -- The braces of the interpolation count, and its source adds nothing to them.
          obtain rfl := Option.some.inj first
          have opening : Passes ['\x7b'] (depth + more) none (depth + 1 + more) none :=
            passes_of_nesting (by simp [isQuote, backquote]) rfl more
          have closing : Passes ['\x7d'] (depth + 1 + more) none (depth + more) none :=
            passes_of_nesting (by simp [isQuote, backquote]) rfl more
          have source := passes_of_interpolation same (depth + 1 + more)
          rw [Nat.zero_add] at source
          exact opening.append (source.append closing)
      | plain | escape | brace => exact passes_of_nesting unquoted first more

/-- A literal is passed over between other code. -/
theorem passes_literal {quote : Char} (quotes : isQuote quote) {items : List Item}
    (found : ∀ item ∈ items, item.Found quote)
    (asText : ∀ source, .interpolation source ∈ items → ReadsAsText source) (depth : Nat) :
    Passes (quote :: (slices items ++ [quote])) depth none depth none :=
  (passes_opening quotes depth).append
    ((passes_slices_inside found asText depth).append (passes_closing quotes depth))

theorem Item.mem_slice_of_mem_text {item : Item} {c : Char} (member : c ∈ item.text) :
    c ∈ item.slice := by
  cases item with
  | interpolation => cases member
  | plain | escape | brace => exact member

theorem mem_slices_of_mem {items : List Item} {source : List Char}
    (member : .interpolation source ∈ items) : ∀ c ∈ source, c ∈ slices items := fun c inside =>
  List.mem_flatMap.mpr ⟨_, member, by simp [Item.slice, inside]⟩

end Literal

/-! ## Lexemes -/

namespace Lexeme

open Literal (Passes ReadsAsText nesting)

/-- The lexemes of the text `chars`, which the character `previous` precedes. -/
def cut (previous : Option Char) (chars : List Char) : List Lexeme :=
  match chars with
  | [] => []
  | c :: rest =>
    let lexeme := read previous c rest
    lexeme :: cut lexeme.slice.getLast? ((c :: rest).drop lexeme.slice.length)
termination_by chars.length
decreasing_by
  have := List.length_pos_iff.2 (read_slice_ne_nil previous c rest)
  simp only [List.length_drop, List.length_cons]
  omega

/-- The characters of a lexeme other than a literal. -/
def code : Lexeme → List Char
  | .literal _ _ => []
  | lexeme => lexeme.slice

/-- The characters of a text outside of its literals. -/
def outside (chars : List Char) : List Char := (cut none chars).flatMap code

/-- Whether a lexeme makes no invalid token. -/
def IsWhole : Lexeme → Prop
  | .literal _ body => body.ending = .closed
  | .stray _ => False
  | _ => True

/-- Whether a lexeme of the source of a template's interpolation is passed over as text of the
template. Backquotes would end the text; between two of them, which start and end a template, there
must be no other quotes, and braces must be balanced. -/
def readsAsText : Lexeme → Bool
  | .comment text => !text.contains backquote
  | .literal quote body =>
    if quote = backquote then
      (body.items.flatMap Item.text).all (!isQuote ·) &&
        nesting 0 (body.items.flatMap Item.text) == some 0
    else !body.items.contains (.plain backquote)
  | _ => true

/-- Whether the lexemes of an interpolation's source are passed over as text. Other items are text
already. -/
def interpolatesText : Item → Bool
  | .interpolation source => (cut none source).all readsAsText
  | _ => true

theorem cut_cons {previous : Option Char} {c : Char} {rest after : List Char}
    (split : c :: rest = (read previous c rest).slice ++ after) :
    cut previous (c :: rest) =
      read previous c rest :: cut (read previous c rest).slice.getLast? after := by
  have drop : (c :: rest).drop (read previous c rest).slice.length = after := by
    rw [split, List.drop_left]
  rw [cut, drop]

/-- There are no quotes and no backslashes in lexemes other than literals and comments. -/
theorem unquoted_read {previous : Option Char} {c : Char} {rest : List Char}
    (whole : (read previous c rest).IsWhole)
    (notComment : ∀ text, read previous c rest ≠ .comment text)
    (notLiteral : ∀ quote body, read previous c rest ≠ .literal quote body) :
    ∀ d ∈ (read previous c rest).slice, isQuote d = false ∧ d ≠ '\\' := by
  have unquoted : isQuote c = false := by
    rw [← Bool.not_eq_true]
    exact fun quotes => notLiteral _ _ (read_quote quotes previous rest)
  have notBackslash : c ≠ '\\' := by
    rintro rfl
    exact whole
  have each : ∀ d ∈ (read previous c rest).slice, !isQuote d && d != '\\' := by
    refine forall_mem_slice unquoted (by simp [unquoted, notBackslash]) ?_ ?_ rfl
      (by decide +kernel)
    · rintro rfl
      exact absurd (read_numberSign previous rest) (notComment _)
    · intro d letter
      have others : ['"', '\'', backquote, '\\'].any continuesWord = false := by decide
      have outside : d ∉ ['"', '\'', backquote, '\\'] := fun member =>
        List.any_eq_false.mp others d member letter
      simpa [isQuote, and_assoc] using outside
  exact fun d member => by simpa using each d member

theorem slice_closed {quote : Char} {body : Literal.Body}
    (closed : (literal quote body).IsWhole) :
    (literal quote body).slice = quote :: (slices body.items ++ [quote]) := by
  have ending : body.ending = .closed := closed
  rw [slice, Literal.Body.slice, ending, Literal.Ending.slice]

theorem passes_unquoted {quote : Char} {chars : List Char} (inLine : '\n' ∉ chars)
    (unquoted : ∀ c ∈ chars, isQuote c = false ∧ c ≠ '\\') (quotes : isQuote quote)
    (depth : Nat) : Passes chars depth (some quote) depth (some quote) := by
  induction chars with
  | nil => exact .nil _ _
  | cons c rest ih =>
      obtain ⟨here, later⟩ := List.forall_mem_cons.mp unquoted
      obtain ⟨newline, inLine⟩ := List.ne_and_not_mem_of_not_mem_cons inLine
      exact (Literal.passes_inside newline.symm here.2
        (Literal.ne_of_isQuote quotes here.1) depth).append (ih inLine later)

/-- A literal in the source of a template's interpolation, as text of the template. -/
theorem passes_literal_asText {quote : Char} (quotes : isQuote quote) {chars : List Char}
    (inLine : '\n' ∉ slices (Literal.read quote chars).items)
    (asText : (literal quote (Literal.read quote chars)).readsAsText) (depth : Nat) :
    Passes (quote :: (slices (Literal.read quote chars).items ++ [quote])) depth
      (some backquote) depth (some backquote) := by
  have found := Literal.found_read quote chars
  rw [readsAsText] at asText
  by_cases isTemplate : quote = backquote
  · -- The template opens where the text seems to end, and the text goes on where it is closed.
    subst isTemplate
    rw [if_pos rfl, Bool.and_eq_true, List.all_eq_true, beq_iff_eq] at asText
    have unquoted : ∀ c ∈ (Literal.read backquote chars).items.flatMap Item.text,
        c ≠ '\n' ∧ isQuote c = false := by
      refine fun c member => ⟨?_, by simpa using asText.1 c member⟩
      rintro rfl
      obtain ⟨item, inside, here⟩ := List.mem_flatMap.mp member
      exact inLine (List.mem_flatMap.mpr ⟨item, inside, Item.mem_slice_of_mem_text here⟩)
    have passes := Literal.passes_slices_outside found unquoted asText.2 depth
    rw [Nat.zero_add] at passes
    exact (Literal.passes_closing quotes depth).append
      (passes.append (Literal.passes_opening quotes depth))
  · rw [if_neg isTemplate] at asText
    have asItems : ∀ item ∈ (Literal.read quote chars).items, item.Found backquote := by
      intro item member
      cases found item member with
      | plain inLine _ unshielded =>
          refine .plain inLine ?_ unshielded
          rintro rfl
          simp [member] at asText
      | escape c denoted => exact .escape c denoted
      | brace isTemplate' | interpolation isTemplate' => exact absurd isTemplate' isTemplate
    have noSource (source : List Char)
        (member : .interpolation source ∈ (Literal.read quote chars).items) :
        ReadsAsText source := by
      cases found _ member with
      | interpolation isTemplate' => exact absurd isTemplate' isTemplate
    have delimiter := Literal.passes_inside (Literal.ne_of_isQuote quotes (c := '\n') rfl).symm
      (Literal.ne_of_isQuote quotes (c := '\\') rfl).symm isTemplate depth
    exact delimiter.append ((Literal.passes_slices_inside asItems noSource depth).append delimiter)

/-- A comment in the source of a template's interpolation reaches to the closing brace. -/
theorem passes_comment_asText {text : List Char} (inLine : '\n' ∉ text)
    (asText : (comment text).readsAsText) (depth : Nat) :
    Passes ('#' :: text ++ ['\x7d']) depth (some backquote) depth (some backquote) := by
  refine Literal.passes_text (List.forall_mem_cons.mpr ⟨by decide, fun c member => ?_⟩)
    (by decide) (by decide) (by decide) depth
  constructor
  · rintro rfl
    exact inLine member
  · rintro rfl
    simp [readsAsText, member] at asText

/-- The source of a template's interpolation, as text of the template. -/
theorem passes_asText {previous : Option Char} {source : List Char} (inLine : '\n' ∉ source)
    (each : ∀ lexeme ∈ cut previous source, lexeme.IsWhole ∧ lexeme.readsAsText) (depth : Nat) :
    Passes (source ++ ['\x7d']) depth (some backquote) depth (some backquote) := by
  match source with
  | [] => exact Literal.passes_inside (by decide) (by decide) (by decide) depth
  | c :: rest =>
      obtain ⟨after, split, shorter⟩ := Token.exists_after previous c rest
      rw [cut_cons split] at each
      obtain ⟨⟨whole, asText⟩, later⟩ := List.forall_mem_cons.mp each
      have inLine' := inLine
      rw [split, List.mem_append, not_or] at inLine'
      obtain ⟨here, inLine'⟩ := inLine'
      have following := passes_asText inLine' later depth
      cases lexeme : read previous c rest with
      | comment text =>
          have text_eq : text = rest := by
            rw [read_comment lexeme, List.takeWhile_eq_self_iff]
            rintro d member
            simpa using fun newline : d = '\n' => inLine (newline ▸ List.mem_cons_of_mem c member)
          subst text_eq
          rw [lexeme] at split asText
          obtain ⟨rfl, -⟩ := List.cons.inj split
          exact passes_comment_asText (fun member => inLine (List.mem_cons_of_mem _ member)) asText
            depth
      | literal quote body =>
          obtain ⟨quotes, rfl⟩ := read_literal lexeme
          rw [lexeme] at split whole asText here
          rw [slice_closed whole] at split here
          have inside : '\n' ∉ slices (Literal.read quote rest).items := fun member =>
            here (List.mem_cons_of_mem _ (List.mem_append_left _ member))
          rw [split, List.append_assoc]
          exact (passes_literal_asText quotes inside asText depth).append following
      | _ =>
          have unquoted := unquoted_read whole (by simp [lexeme]) (by simp [lexeme])
          rw [split, List.append_assoc]
          exact (passes_unquoted here unquoted (by decide) depth).append following
termination_by source.length
decreasing_by exact shorter

/-- A text is passed over if its braces are balanced and its literals are passed over. -/
theorem passes_cut {previous : Option Char} {chars : List Char} {depth depth' : Nat}
    (inLine : '\n' ∉ chars) (uncommented : '#' ∉ (cut previous chars).flatMap code)
    (nested : nesting depth ((cut previous chars).flatMap code) = some depth')
    (each : ∀ lexeme ∈ cut previous chars, lexeme.IsWhole ∧
      ∀ source, .interpolation source ∈ lexeme.items → ReadsAsText source) :
    Passes chars depth none depth' none := by
  match chars with
  | [] =>
      rw [cut] at nested
      obtain rfl := Option.some.inj nested
      exact .nil _ _
  | c :: rest =>
      obtain ⟨after, split, shorter⟩ := Token.exists_after previous c rest
      rw [cut_cons split] at each uncommented nested
      rw [split, List.mem_append, not_or] at inLine
      obtain ⟨⟨whole, asText⟩, later⟩ := List.forall_mem_cons.mp each
      rw [List.flatMap_cons, List.mem_append, not_or] at uncommented
      rw [List.flatMap_cons] at nested
      obtain ⟨between, first, second⟩ := Literal.nesting_append nested
      have following := passes_cut inLine.2 uncommented.2 second later
      rw [split]
      refine Passes.append ?_ following
      cases lexeme : read previous c rest with
      | comment text => simp [lexeme, code, slice] at uncommented
      | literal quote body =>
          obtain ⟨quotes, rfl⟩ := read_literal lexeme
          rw [lexeme] at first whole asText
          obtain rfl := Option.some.inj first
          rw [slice_closed whole]
          exact Literal.passes_literal quotes (Literal.found_read quote rest) asText depth
      | _ =>
          have unquoted := unquoted_read whole (by simp [lexeme]) (by simp [lexeme])
          rw [lexeme] at first unquoted inLine
          refine Literal.passes_of_nesting (fun d member => ⟨?_, (unquoted d member).1⟩) first 0
          rintro rfl
          exact inLine.1 member
termination_by chars.length
decreasing_by exact shorter

end Lexeme

/-! ## Valid tokens -/

namespace Token

open Lexeme (cut)

/-- The lexemes of a text that is scanned have tokens among those of the text. -/
theorem exists_of_mem_cut {previous : Option Char} {location : Location} {chars : List Char}
    {tokens : List Token} (found : scanFrom previous location chars = .ok tokens) {lexeme : Lexeme}
    (member : lexeme ∈ cut previous chars) :
    (∀ c ∈ lexeme.slice, c ∈ chars) ∧ ∃ place inside segments token?,
      scanItems inside lexeme.items = .ok segments ∧
      lexeme.token? place segments = .ok token? ∧ ∀ token ∈ token?, token ∈ tokens := by
  replace found := scanning_of_scanFrom found
  induction found with
  | done =>
      rw [cut] at member
      cases member
  | @lexeme _ _ _ _ _ segments token? _ split itemsFound tokenFound _ ih =>
      rw [Lexeme.cut_cons split] at member
      rcases List.mem_cons.mp member with rfl | member
      · refine ⟨fun d here => ?_, _, _, segments, token?, itemsFound, tokenFound,
          fun token here => List.mem_append_left _ (Option.mem_toList.mpr here)⟩
        rw [split]
        exact List.mem_append_left _ here
      · obtain ⟨inside, place, place', segments, token?, itemsFound, tokenFound, among⟩ :=
          ih member
        refine ⟨fun d here => ?_, place, place', segments, token?, itemsFound, tokenFound,
          fun token here => List.mem_append_right _ (among token here)⟩
        rw [split]
        exact List.mem_append_right _ (inside d here)

/-- A text without invalid tokens has whole lexemes, and so have the sources of its
interpolations. -/
theorem whole_of_mem_cut {previous : Option Char} {location : Location} {chars : List Char}
    {tokens : List Token} (found : scanFrom previous location chars = .ok tokens)
    (valid : ∀ token ∈ nestedAll tokens, token.kind ≠ .invalid) {lexeme : Lexeme}
    (member : lexeme ∈ cut previous chars) :
    lexeme.IsWhole ∧ ∀ source, .interpolation source ∈ lexeme.items →
      (∀ c ∈ source, c ∈ chars) ∧ ∃ place inner, scanFrom none place source = .ok inner ∧
        ∀ token ∈ nestedAll inner, token.kind ≠ .invalid := by
  obtain ⟨inText, place, place', segments, token?, itemsFound, tokenFound, among⟩ :=
    exists_of_mem_cut found member
  have each (token : Token) (here : token ∈ token?) : token.kind ≠ .invalid ∧
      ∀ inner ∈ Segment.nestedAll token.payload.parts, inner.kind ≠ .invalid := by
    have nested := forall_mem_nestedAll.mp valid token (among token here)
    rwa [nested_eq, List.forall_mem_cons] at nested
  cases lexeme with
  | literal quote body =>
      have unbroken := Lexeme.not_isBroken tokenFound fun token here => (each token here).1
      have closed : body.ending = .closed := not_not.mp unbroken
      refine ⟨closed, fun source part => ⟨fun c inside => ?_, ?_⟩⟩
      · refine inText c ?_
        rw [Lexeme.slice_closed closed]
        exact List.mem_cons_of_mem _
          (List.mem_append_left _ (Literal.mem_slices_of_mem part c inside))
      · obtain ⟨place'', inner, innerFound, expression⟩ := exists_expression_of_mem itemsFound part
        refine ⟨place'', inner, innerFound, ?_⟩
        obtain rfl := Except.ok.inj tokenFound
        have inParts := (each _ rfl).2
        simp only [Lexeme.literalToken, closed, Payload.parts] at inParts
        exact forall_mem_segments.mp inParts inner _ expression
  | stray c =>
      obtain rfl := Except.ok.inj tokenFound
      exact absurd rfl (each _ rfl).1
  | _ => exact ⟨trivial, by simp [Lexeme.items]⟩

end Token

/-! ## Tokens without places -/

/-- One and the same place for all. -/
def Location.erase (_ : Location) : Location := .start none

namespace Token

open Lexeme (cut)

/-- A token with nothing said of its place, nor of those of interpolated expressions. -/
def unplaced (token : Token) : Token := token.relocate Location.erase

/-- The token of a lexeme is the same everywhere but for places. -/
theorem token?_unplaced (location location' : Location) {segments segments' : List Segment}
    (same : Segment.relocateAll Location.erase segments =
      Segment.relocateAll Location.erase segments') (lexeme : Lexeme) :
    Option.map unplaced <$> lexeme.token? location segments =
      Option.map unplaced <$> lexeme.token? location' segments' := by
  cases lexeme with
  | blank | comment => rfl
  | newline | operator | stray =>
      simp [Lexeme.token?, Functor.map, Except.map, unplaced, Location.erase]
  | word letters =>
      simp only [Lexeme.token?, Functor.map, Except.map, Lexeme.wordToken]
      split <;> simp [unplaced, Location.erase]
  | number whole fraction =>
      simp only [Lexeme.token?, Lexeme.numberToken]
      split
      · split <;> simp [Functor.map, Except.map, unplaced, Location.erase]
      · simp [Functor.map, Except.map, unplaced, Location.erase]
  | literal quote body =>
      simp only [Lexeme.token?, Lexeme.literalToken, Functor.map, Except.map]
      split
      · simp [unplaced, Payload.relocate, Location.erase, same]
      · simp [unplaced, Location.erase]

/-- What is computed from two outcomes that differ in places only differs in places only. -/
theorem map_bind_congr {ε α β γ δ : Type} {f : α → γ} {g : β → δ} {first second : Except ε α}
    {next next' : α → Except ε β} (same : f <$> first = f <$> second)
    (each : ∀ value value', f value = f value' → g <$> next value = g <$> next' value') :
    g <$> (first >>= next) = g <$> (second >>= next') := by
  cases first with
  | error overflow =>
      cases second with
      | error overflow' => rw [Except.error.inj same]; rfl
      | ok value' => cases same
  | ok value =>
      cases second with
      | error overflow' => cases same
      | ok value' => exact each value value' (Except.ok.inj same)

/-- A text has the same tokens everywhere but for places. -/
theorem scanFrom_unplaced (previous : Option Char) (location location' : Location)
    (chars : List Char) : List.map unplaced <$> scanFrom previous location chars =
      List.map unplaced <$> scanFrom previous location' chars := by
  revert location'
  refine scanFrom.induct
    (fun previous location chars => ∀ location',
      List.map unplaced <$> scanFrom previous location chars =
        List.map unplaced <$> scanFrom previous location' chars)
    (fun location items => ∀ location',
      Segment.relocateAll Location.erase <$> scanItems location items =
        Segment.relocateAll Location.erase <$> scanItems location' items)
    ?_ ?_ ?_ ?_ ?_ ?_ ?_ previous location chars
  · intro previous location location'
    simp [scanFrom, Functor.map, Except.map, unplaced, Location.erase]
  · intro previous location c rest lexeme items later location'
    rw [scanFrom, scanFrom]
    refine map_bind_congr (items _) fun segments segments' same => ?_
    refine map_bind_congr (token?_unplaced location location' same lexeme)
      fun token? token?' sameToken => ?_
    refine map_bind_congr (later _) fun tokens tokens' sameLater => ?_
    rw [map_pure, map_pure, List.map_append, List.map_append, ← Option.toList_map,
      ← Option.toList_map, sameToken, sameLater]
  · intro location location'
    simp [scanItems]
  · intro location source rest tokens later location'
    rw [scanItems, scanItems]
    refine map_bind_congr (tokens _) fun inner inner' same => ?_
    refine map_bind_congr (later _) fun segments segments' sameLater => ?_
    have sameInner : inner.map (relocate Location.erase) = inner'.map (relocate Location.erase) :=
      same
    rw [map_pure, map_pure, Segment.relocateAll, Segment.relocateAll, relocateAll_eq_map,
      relocateAll_eq_map, sameInner, sameLater]
  -- The other items are characters of the text before the next interpolation.
  · intro location c rest later location'
    rw [scanItems, scanItems, ← map_relocateAll_consText, ← map_relocateAll_consText, later]
  · intro location c denoted rest later location'
    rw [scanItems, scanItems, ← map_relocateAll_consText, ← map_relocateAll_consText, later]
  · intro location c rest later location'
    rw [scanItems, scanItems, ← map_relocateAll_consText, ← map_relocateAll_consText, later]

/-! ## Templates of one interpolation -/

/-- A text between the braces of an interpolation that is all of a template. -/
def interpolating (text : String) : String := "\x60\x7b" ++ text ++ "\x7d\x60"

/-- A text on one line that is not blank and can stand after a brace, without comments and with
balanced braces outside of its literals. -/
structure Insertable (text : String) : Prop where
  inLine : '\n' ∉ text.toList
  filled : Text.isBlank text.toList = false
  single : text.toList.head? ≠ some '\x7b'
  uncommented : '#' ∉ Lexeme.outside text.toList
  balanced : Literal.nesting 0 (Lexeme.outside text.toList) = some 0

instance (text : String) : Decidable (Insertable text) :=
  decidable_of_iff
    ('\n' ∉ text.toList ∧ Text.isBlank text.toList = false ∧ text.toList.head? ≠ some '\x7b' ∧
      '#' ∉ Lexeme.outside text.toList ∧
      Literal.nesting 0 (Lexeme.outside text.toList) = some 0)
    ⟨fun ⟨inLine, filled, single, uncommented, balanced⟩ =>
      ⟨inLine, filled, single, uncommented, balanced⟩,
    fun ⟨inLine, filled, single, uncommented, balanced⟩ =>
      ⟨inLine, filled, single, uncommented, balanced⟩⟩

/-- The tokens `template` of a template are a string literal with one segment, the expression of
source `text`, and an end of file. The tokens of the expression are `tokens` at other places. -/
def IsInterpolation (file : Option String) (text : String) (tokens template : List Token) : Prop :=
  ∃ inner, template = [⟨.string, .segments [.expression inner text], .start file⟩,
      inserted .endOfFile ((Location.start file).advanceAll (interpolating text).toList)] ∧
    inner.map unplaced = tokens.map unplaced

/-- A text whose end is found is scanned in an interpolation as on its own. -/
theorem scan_interpolating {text : String} {file : Option String} {tokens : List Token}
    (filled : Text.isBlank text.toList = false) (single : text.toList.head? ≠ some '\x7b')
    (passes : Literal.Passes text.toList 0 none 0 none) (found : scan text file = .ok tokens) :
    ∃ template, scan (interpolating text) file = .ok template ∧
      IsInterpolation file text tokens template := by
  have chars : (interpolating text).toList =
      backquote :: (slices [.interpolation text.toList] ++ [backquote]) := by
    simp [interpolating, backquote, Item.slice]
  have same := scanFrom_unplaced none (.start file)
    (((Location.start file).advance backquote).advance '\x7b') text.toList
  rw [show scanFrom none (.start file) text.toList = .ok tokens from found] at same
  cases innerFound : scanFrom none
      (((Location.start file).advance backquote).advance '\x7b') text.toList with
  | error overflow =>
      rw [innerFound] at same
      cases same
  | ok inner =>
      rw [innerFound] at same
      refine ⟨_, ?_, inner, rfl, (Except.ok.inj same).symm⟩
      have items : scanItems ((Location.start file).advance backquote)
          [.interpolation text.toList] = .ok [.expression inner text] := by
        rw [scanItems, innerFound, scanItems, String.ofList_toList]
        rfl
      have scans : Scans (fun _ => True) (.start file) (interpolating text).toList
          [⟨.string, .segments [.expression inner text], .start file⟩] := by
        rw [chars]
        exact .literal rfl (List.forall_mem_singleton.mpr (.interpolation rfl passes filled single))
          items
      exact scans.whole trivial

/-- A text without invalid tokens is scanned in an interpolation as on its own, if what its own
templates interpolate is passed over as text of these templates. -/
theorem scan_interpolated {text : String} {file : Option String} {tokens : List Token}
    (insertable : Insertable text) (found : scan text file = .ok tokens)
    (valid : ∀ token ∈ nestedAll tokens, token.kind ≠ .invalid)
    (asText : (cut none text.toList).all (·.items.all Lexeme.interpolatesText)) :
    ∃ template, scan (interpolating text) file = .ok template ∧
      IsInterpolation file text tokens template := by
  refine scan_interpolating insertable.filled insertable.single ?_ found
  refine Lexeme.passes_cut insertable.inLine insertable.uncommented insertable.balanced ?_
  intro lexeme member
  obtain ⟨whole, sources⟩ := whole_of_mem_cut found valid member
  refine ⟨whole, fun source part => ?_⟩
  obtain ⟨inText, place, inner, innerFound, innerValid⟩ := sources source part
  have asText := List.all_eq_true.mp (List.all_eq_true.mp asText lexeme member) _ part
  have each (lexeme' : Lexeme) (member' : lexeme' ∈ cut none source) :
      lexeme'.IsWhole ∧ lexeme'.readsAsText :=
    ⟨(whole_of_mem_cut innerFound innerValid member').1,
      List.all_eq_true.mp asText lexeme' member'⟩
  exact Lexeme.passes_asText (fun newline => insertable.inLine (inText _ newline)) each

/-- A text is scanned, and none of its tokens is invalid, to any depth. -/
def isClean (text : String) : Bool :=
  match scan text none with
  | .ok tokens => (nestedAll tokens).all (·.kind != .invalid)
  | .error _ => false

theorem exists_of_isClean {text : String} (clean : isClean text) :
    ∃ tokens, scan text none = .ok tokens ∧
      ∀ token ∈ nestedAll tokens, token.kind ≠ .invalid := by
  unfold isClean at clean
  split at clean
  case h_1 tokens found => exact ⟨tokens, found, by simpa using clean⟩
  case h_2 => cases clean

/-- Braces around a template, in which another template and a string literal are interpolated. -/
theorem scan_interpolated_nested :
    let text := "f \x7ba: \x60x\x7bg \x60b\x7bh 'z'\x7dc\x60 \"q\x7d\"\x7dy\x60\x7d"
    ∃ tokens template, scan text none = .ok tokens ∧
      (∀ token ∈ nestedAll tokens, token.kind ≠ .invalid) ∧
      scan (interpolating text) none = .ok template ∧
      IsInterpolation none text tokens template := by
  intro text
  have insertable : Insertable text := by decide +kernel
  have clean : isClean text := by decide +kernel
  have asText : (cut none text.toList).all (·.items.all Lexeme.interpolatesText) := by
    decide +kernel
  obtain ⟨tokens, found, valid⟩ := exists_of_isClean clean
  obtain ⟨template, scanned, interpolated⟩ := scan_interpolated insertable found valid asText
  exact ⟨tokens, template, found, valid, scanned, interpolated⟩

/-- The apostrophe in a template within a template seems to start a literal, so the interpolation
around them is not closed. -/
theorem unread_apostrophe :
    let text := "\x60\x7b\x60it's\x60\x7d\x60"
    Insertable text ∧
      ∃ tokens template, scan text none = .ok tokens ∧
        (∀ token ∈ nestedAll tokens, token.kind ≠ .invalid) ∧
        scan (interpolating text) none = .ok template ∧
        (∃ token ∈ template, token.kind = .invalid) ∧
        ¬IsInterpolation none text tokens template := by
  intro text
  have insertable : Insertable text := by decide +kernel
  have clean : isClean text := by decide +kernel
  have kinds : (scan (interpolating text) none).map (·.map (·.kind)) =
      .ok [.invalid, .endOfFile] := by decide +kernel
  obtain ⟨tokens, found, valid⟩ := exists_of_isClean clean
  cases scanned : scan (interpolating text) none with
  | error overflow =>
      rw [scanned] at kinds
      cases kinds
  | ok template =>
      rw [scanned] at kinds
      have kinds : template.map (·.kind) = [.invalid, .endOfFile] := Except.ok.inj kinds
      have invalid : Kind.invalid ∈ template.map (·.kind) := by simp [kinds]
      refine ⟨insertable, tokens, template, found, valid, rfl, by simpa using invalid, ?_⟩
      rintro ⟨inner, rfl, -⟩
      cases kinds

end Token

end Offside
