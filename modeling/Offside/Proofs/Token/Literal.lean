import Offside.Token.Literal

/-!
# Reading literals

The source of an interpolation goes up to its closing brace, which is looked for character by
character, with a count of open braces and the literal that is being read. The search goes over a
source in the same way whatever follows it, and whatever is counted before it. So each item of a
literal is read in the same way wherever it stands, and a literal is its items and then its ending.
-/

namespace Offside.Literal

/-! ## Pieces that a search goes over -/

/-- Looking for the end of an interpolation goes over the whole of `piece`, and what it counts and
the literal that it reads change from `depth` and `quote` to `depth'` and `quote'`. -/
def Passes (piece : List Char) (depth : Nat) (quote : Option Char) (depth' : Nat)
    (quote' : Option Char) : Prop :=
  ∀ rest, interpolation depth quote (piece ++ rest) =
    (piece ++ (interpolation depth' quote' rest).1, (interpolation depth' quote' rest).2)

theorem Passes.nil (depth : Nat) (quote : Option Char) : Passes [] depth quote depth quote :=
  fun _ => rfl

theorem Passes.append {first second : List Char} {depth depth' depth'' : Nat}
    {quote quote' quote'' : Option Char} (passes : Passes first depth quote depth' quote')
    (later : Passes second depth' quote' depth'' quote'') :
    Passes (first ++ second) depth quote depth'' quote'' := by
  intro rest
  rw [List.append_assoc, passes, later, List.append_assoc]

/-- The source of an interpolation ends after a piece that leaves no brace and no quote open. -/
theorem Passes.closed {piece : List Char} {depth : Nat} {quote : Option Char}
    (passes : Passes piece depth quote 0 none) (rest : List Char) :
    interpolation depth quote (piece ++ '\x7d' :: rest) = (piece, true) := by
  have ends : interpolation 0 none ('\x7d' :: rest) = ([], true) := by
    simp [interpolation]
  rw [passes, ends, List.append_nil]

/-- The number of open braces after the character `c`. -/
def braces (depth : Nat) (c : Char) : Nat :=
  if c = '\x7b' then depth + 1 else if c = '\x7d' then depth - 1 else depth

/-- The number of open braces after a text without literals, unless it closes one too many. -/
def nesting (depth : Nat) : List Char → Option Nat
  | [] => some depth
  | c :: rest => if c = '\x7d' ∧ depth = 0 then none else nesting (braces depth c) rest

theorem braces_add {depth : Nat} {c : Char} (goesOn : ¬(c = '\x7d' ∧ depth = 0)) (more : Nat) :
    braces depth c + more = braces (depth + more) c := by
  unfold braces
  grind

theorem nesting_append {first second : List Char} {depth depth' : Nat}
    (nested : nesting depth (first ++ second) = some depth') :
    ∃ between, nesting depth first = some between ∧ nesting between second = some depth' := by
  induction first generalizing depth with
  | nil => exact ⟨depth, rfl, nested⟩
  | cons c rest ih =>
      rw [List.cons_append, nesting] at nested
      rw [nesting]
      split at nested
      case isTrue => cases nested
      case isFalse goesOn =>
          rw [if_neg goesOn]
          exact ih nested

section

variable {quote c : Char}

/-- Outside of literals braces count, and a quote starts a literal. -/
theorem passes_outside {depth : Nat} (inLine : c ≠ '\n') (goesOn : ¬(c = '\x7d' ∧ depth = 0)) :
    Passes [c] depth none (braces depth c) (if isQuote c then some c else none) := by
  intro rest
  rw [List.singleton_append, interpolation.eq_def]
  simp [inLine, goesOn, braces]

/-- Inside a literal only its closing quote matters. -/
theorem passes_within (quote : Char) (inLine : c ≠ '\n') (unshielded : c ≠ '\\') (depth : Nat) :
    Passes [c] depth (some quote) depth (if c = quote then none else some quote) := by
  intro rest
  rw [List.singleton_append, interpolation.eq_def]
  simp [inLine, unshielded]

theorem passes_inside (inLine : c ≠ '\n') (unshielded : c ≠ '\\') (other : c ≠ quote)
    (depth : Nat) : Passes [c] depth (some quote) depth (some quote) := by
  have passes := passes_within quote inLine unshielded depth
  rwa [if_neg other] at passes

theorem passes_shielded (quote c : Char) (depth : Nat) :
    Passes ['\\', c] depth (some quote) depth (some quote) := by
  intro rest
  rw [List.cons_append, List.singleton_append, interpolation.eq_def]
  simp

theorem ne_of_isQuote (quotes : isQuote quote) {c : Char} (other : isQuote c = false) :
    c ≠ quote := by
  rintro rfl
  rw [quotes] at other
  cases other

theorem passes_closing (quotes : isQuote quote) (depth : Nat) :
    Passes [quote] depth (some quote) depth none := by
  have passes := passes_within quote (ne_of_isQuote quotes (c := '\n') rfl).symm
    (ne_of_isQuote quotes (c := '\\') rfl).symm depth
  rwa [if_pos rfl] at passes

theorem passes_opening (quotes : isQuote quote) (depth : Nat) :
    Passes [quote] depth none depth (some quote) := by
  have opening := ne_of_isQuote quotes (c := '\x7b') rfl
  have closing := ne_of_isQuote quotes (c := '\x7d') rfl
  have uncounted : braces depth quote = depth := by
    rw [braces, if_neg opening.symm, if_neg closing.symm]
  have passes := passes_outside (ne_of_isQuote quotes (c := '\n') rfl).symm
    (fun closes : quote = '\x7d' ∧ depth = 0 => closing closes.1.symm)
  rwa [uncounted, if_pos quotes] at passes

end

/-- Text without quotes is passed over outside of literals whatever is counted before it. -/
theorem passes_of_nesting {chars : List Char} {depth depth' : Nat}
    (unquoted : ∀ c ∈ chars, c ≠ '\n' ∧ isQuote c = false)
    (nested : nesting depth chars = some depth') (more : Nat) :
    Passes chars (depth + more) none (depth' + more) none := by
  induction chars generalizing depth with
  | nil =>
      obtain rfl := Option.some.inj nested
      exact .nil _ none
  | cons c rest ih =>
      obtain ⟨⟨inLine, other⟩, later⟩ := List.forall_mem_cons.mp unquoted
      rw [nesting] at nested
      split at nested
      case isTrue => cases nested
      case isFalse goesOn =>
          have passes := passes_outside inLine fun ends : c = '\x7d' ∧ depth + more = 0 =>
            goesOn ⟨ends.1, by omega⟩
          rw [other, if_neg Bool.false_ne_true, ← braces_add goesOn] at passes
          exact passes.append (ih later nested)

/-- Text without the quote of the literal that it is in, and one more character: a backslash at its
end shields that one. -/
theorem passes_text {quote c : Char} {chars : List Char}
    (inside : ∀ d ∈ chars, d ≠ '\n' ∧ d ≠ quote) (inLine : c ≠ '\n') (unshielded : c ≠ '\\')
    (other : c ≠ quote) (depth : Nat) :
    Passes (chars ++ [c]) depth (some quote) depth (some quote) := by
  match chars with
  | [] => exact passes_inside inLine unshielded other depth
  | d :: rest =>
      obtain ⟨here, later⟩ := List.forall_mem_cons.mp inside
      by_cases shields : d = '\\'
      · subst shields
        match rest with
        | [] => exact passes_shielded quote c depth
        | _ :: rest =>
            exact (passes_shielded quote _ depth).append
              (passes_text (List.forall_mem_cons.mp later).2 inLine unshielded other depth)
      · exact (passes_inside here.1 shields here.2 depth).append
          (passes_text later inLine unshielded other depth)

/-! ## What a search finds -/

/-- How the search with `depth` open braces in the literal `quote` goes over a text, with the source
that it finds and whether that is closed. -/
inductive Searched : (depth : Nat) → (quote : Option Char) → (chars source : List Char) →
    (closed : Bool) → Prop where
  /-- The text or its line ends. -/
  | stopped (depth : Nat) (quote : Option Char) (chars : List Char) :
      Searched depth quote chars [] false
  /-- The text ends with a backslash that shields nothing. -/
  | cut (depth : Nat) (quote : Char) : Searched depth (some quote) ['\\'] ['\\'] false
  | closed (rest : List Char) : Searched 0 none ('\x7d' :: rest) [] true
  | outside {depth : Nat} {c : Char} {rest source : List Char} {closed : Bool} : c ≠ '\n' →
      ¬(c = '\x7d' ∧ depth = 0) →
      Searched (braces depth c) (if isQuote c then some c else none) rest source closed →
      Searched depth none (c :: rest) (c :: source) closed
  | within {depth : Nat} {quote c : Char} {rest source : List Char} {closed : Bool} : c ≠ '\n' →
      c ≠ '\\' → Searched depth (if c = quote then none else some quote) rest source closed →
      Searched depth (some quote) (c :: rest) (c :: source) closed
  | shielded {depth : Nat} {quote : Char} (c : Char) {rest source : List Char} {closed : Bool} :
      Searched depth (some quote) rest source closed →
      Searched depth (some quote) ('\\' :: c :: rest) ('\\' :: c :: source) closed

theorem searched (depth : Nat) (quote : Option Char) (chars : List Char) :
    Searched depth quote chars (interpolation depth quote chars).1
      (interpolation depth quote chars).2 := by
  match chars with
  | [] => exact .stopped depth quote []
  | c :: rest =>
      rw [interpolation.eq_def]
      dsimp only
      split
      case isTrue => exact .stopped depth quote _
      case isFalse inLine =>
          cases quote with
          | none =>
              dsimp only
              split
              case isTrue ends =>
                  obtain ⟨rfl, rfl⟩ := ends
                  exact .closed rest
              case isFalse goesOn => exact .outside inLine goesOn (searched ..)
          | some quote =>
              dsimp only
              split
              case isTrue shields =>
                  subst shields
                  cases rest with
                  | nil => exact .cut depth quote
                  | cons d after => exact .shielded d (searched ..)
              case isFalse unshielded => exact .within inLine unshielded (searched ..)
termination_by chars.length

/-- A source that is closed is passed over whatever is counted before it, too. -/
theorem Searched.passes {depth : Nat} {quote : Option Char} {chars source : List Char}
    {closed : Bool} (searched : Searched depth quote chars source closed) (isClosed : closed = true)
    (more : Nat) : Passes source (depth + more) quote more none := by
  induction searched with
  | stopped | cut => cases isClosed
  | closed rest =>
      rw [Nat.zero_add]
      exact .nil more none
  | @outside depth c _ _ _ inLine goesOn _ ih =>
      have later := ih isClosed
      rw [braces_add goesOn] at later
      have here : ¬(c = '\x7d' ∧ depth + more = 0) := fun ends => goesOn ⟨ends.1, by omega⟩
      exact (passes_outside inLine here).append later
  | within inLine unshielded _ ih =>
      exact (passes_within _ inLine unshielded _).append (ih isClosed)
  | shielded c _ ih => exact (passes_shielded _ c _).append (ih isClosed)

theorem passes_of_interpolation {depth : Nat} {quote : Option Char} {chars source : List Char}
    (found : interpolation depth quote chars = (source, true)) (more : Nat) :
    Passes source (depth + more) quote more none := by
  have searched := searched depth quote chars
  rw [found] at searched
  exact searched.passes rfl more

/-! ## Items and endings -/

/-- An item that is read between quotes `quote` wherever it stands. -/
inductive Item.Stands (quote : Char) : Item → Prop where
  | plain {c : Char} : c ≠ '\n' → c ≠ quote → c ≠ '\\' →
      ¬(quote = backquote ∧ (c = '\x7b' ∨ c = '\x7d')) → Stands quote (.plain c)
  | escape {c denoted : Char} : '\\' ≠ quote → c ≠ '\n' → unescape? c = some denoted →
      Stands quote (.escape c denoted)
  | brace {c : Char} : quote = backquote → c = '\x7b' ∨ c = '\x7d' → Stands quote (.brace c)
  | interpolation {source : List Char} : quote = backquote → Passes source 0 none 0 none →
      Text.isBlank source = false → source.head? ≠ some '\x7b' →
      Stands quote (.interpolation source)

theorem read_item {quote : Char} {item : Item} (stands : item.Stands quote) (rest : List Char) :
    read quote (item.slice ++ rest) = (read quote rest).cons item := by
  cases stands with
  | plain inLine unquoted unescaped unbraced =>
      rw [Item.slice, List.singleton_append, read.eq_def]
      simp [inLine, unquoted, unescaped, unbraced]
  | escape unquoted inLine denotes =>
      rw [Item.slice, List.cons_append, List.singleton_append, read.eq_def]
      simp [unquoted, inLine, denotes]
  | brace isTemplate isBrace =>
      subst isTemplate
      rw [Item.slice, List.cons_append, List.singleton_append, read.eq_def]
      rcases isBrace with rfl | rfl <;> rfl
  | @interpolation source isTemplate passes filled single =>
      subst isTemplate
      have once : (source ++ '\x7d' :: rest).head? ≠ some '\x7b' := by
        cases source with
        | nil => cases filled
        | cons => exact single
      have after : (source ++ '\x7d' :: rest).drop (source.length + 1) = rest := by simp
      rw [Item.slice, List.cons_append, List.append_assoc, read.eq_def]
      simp only [List.singleton_append, passes.closed, after, if_neg once, filled]
      rfl

/-- Items that stand in front of the rest of a literal. -/
theorem read_slices {quote : Char} {items : List Item} (stand : ∀ item ∈ items, item.Stands quote)
    (rest : List Char) :
    read quote (slices items ++ rest) =
      ⟨items ++ (read quote rest).items, (read quote rest).ending⟩ := by
  induction items with
  | nil => rfl
  | cons item items ih =>
      obtain ⟨first, others⟩ := List.forall_mem_cons.mp stand
      rw [slices_cons, List.append_assoc, read_item first, ih others]
      rfl

/-- Items that stand in front of a quote. -/
theorem read_quoted {quote : Char} {items : List Item} (stand : ∀ item ∈ items, item.Stands quote)
    (inLine : quote ≠ '\n') (rest : List Char) :
    read quote (slices items ++ quote :: rest) = ⟨items, .closed⟩ := by
  have closed : read quote (quote :: rest) = ⟨[], .closed⟩ := by
    rw [read.eq_def]
    simp [inLine]
  rw [read_slices stand, closed, List.append_nil]

/-- How a literal between quotes `quote` ends whose text after its items is `chars`. -/
inductive Ending.Stands (quote : Char) : List Char → Ending → Prop where
  | closed (after : List Char) : quote ≠ '\n' → Stands quote (quote :: after) .closed
  | unterminated (chars : List Char) : Stands quote chars (.broken (.unterminated quote) [])
  | unterminatedEscape (after : List Char) :
      Stands quote ('\\' :: after) (.broken .unterminatedEscape ['\\'])
  | invalidEscape (c : Char) (after : List Char) :
      Stands quote ('\\' :: c :: after)
        (.broken (.invalidEscape c) ('\\' :: recovery quote (c :: after)))
  | loneClosingBrace (after : List Char) :
      Stands quote ('\x7d' :: after)
        (.broken .loneClosingBrace ('\x7d' :: recovery quote after))
  | unterminatedInterpolation {chars source : List Char} : quote = backquote →
      interpolation 0 none chars = (source, false) →
      Stands quote ('\x7b' :: chars) (.broken .unterminatedInterpolation ('\x7b' :: source))
  | emptyInterpolation {chars source : List Char} : quote = backquote →
      interpolation 0 none chars = (source, true) →
      Stands quote ('\x7b' :: chars) (.broken .emptyInterpolation
        ('\x7b' :: (source ++ '\x7d' :: recovery quote (chars.drop (source.length + 1)))))

/-- The text `chars` starts with the items of a body between quotes `quote`, which then ends. -/
def Body.Stands (quote : Char) (chars : List Char) (body : Body) : Prop :=
  ∃ rest, chars = slices body.items ++ rest ∧ (∀ item ∈ body.items, item.Stands quote) ∧
    body.ending.Stands quote rest

section

variable {quote : Char} {chars : List Char}

theorem Ending.Stands.body {ending : Ending} (ends : ending.Stands quote chars) :
    Body.Stands quote chars ⟨[], ending⟩ :=
  ⟨chars, rfl, List.forall_mem_nil _, ends⟩

theorem Body.Stands.cons {item : Item} {body : Body} (first : item.Stands quote)
    (stands : body.Stands quote chars) : (body.cons item).Stands quote (item.slice ++ chars) := by
  obtain ⟨rest, rfl, others, ends⟩ := stands
  exact ⟨rest, by rw [Body.cons, slices_cons, List.append_assoc],
    List.forall_mem_cons.mpr ⟨first, others⟩, ends⟩

end

/-- A literal consists of the items that are read in it and of its ending. -/
theorem stands_read (quote : Char) (chars : List Char) : (read quote chars).Stands quote chars := by
  have opened {c : Char} (isBrace : (quote = backquote && (c = '\x7b' || c = '\x7d')) = true)
      (opening : c ≠ '\x7d') : quote = backquote ∧ c = '\x7b' := by
    simpa [opening] using isBrace
  fun_induction read quote chars with
  | case1 | case2 => exact Ending.Stands.body (.unterminated _)
  | case3 rest inLine => exact Ending.Stands.body (.closed rest inLine)
  | case4 | case5 => exact Ending.Stands.body (.unterminatedEscape _)
  | case6 c after inLine denoted denotes _ unquoted ih =>
      exact ih.cons (.escape unquoted inLine denotes)
  | case7 c after => exact Ending.Stands.body (.invalidEscape c after)
  | case8 c rest inLine unquoted unescaped isBrace twice ih =>
      obtain ⟨isTemplate, isBrace⟩ : quote = backquote ∧ (c = '\x7b' ∨ c = '\x7d') := by
        simpa using isBrace
      obtain ⟨after, rfl⟩ := List.head?_eq_some_iff.mp twice
      exact ih.cons (.brace isTemplate isBrace)
  | case9 rest _ unquoted =>
      rw [recovery, if_neg (by decide), if_neg unquoted]
      exact Ending.Stands.body (.loneClosingBrace rest)
  | case10 c rest _ _ _ isBrace _ opening source closed same unclosed =>
      obtain ⟨isTemplate, rfl⟩ := opened isBrace opening
      obtain rfl : closed = false := by simpa using unclosed
      exact Ending.Stands.body (.unterminatedInterpolation isTemplate same)
  | case11 c rest _ _ _ isBrace _ opening source closed same _ found =>
      obtain ⟨isTemplate, rfl⟩ := opened isBrace opening
      obtain rfl : closed = true := by simpa using found
      exact Ending.Stands.body (.emptyInterpolation isTemplate same)
  | case12 c rest _ _ _ isBrace once opening source closed same after found filled ih =>
      obtain ⟨isTemplate, rfl⟩ := opened isBrace opening
      obtain rfl : closed = true := by simpa using found
      have split := eq_append_of_interpolation same
      have single : source.head? ≠ some '\x7b' := by
        rw [split] at once
        cases source with
        | nil => simp
        | cons => exact once
      have stands := ih.cons (.interpolation isTemplate (passes_of_interpolation same 0)
        (Bool.eq_false_iff.mpr filled) single)
      rwa [Item.slice, List.cons_append, List.append_assoc, List.singleton_append,
        ← split] at stands
  | case13 c rest inLine unquoted unescaped plain ih =>
      exact ih.cons (.plain inLine unquoted unescaped (by simpa using plain))

/-- A literal that is closed ends at its quote, whatever follows. -/
theorem read_closed {quote : Char} {chars : List Char}
    (closed : (read quote chars).ending = .closed) (more : List Char) :
    read quote ((read quote chars).slice quote ++ more) = read quote chars := by
  obtain ⟨rest, -, stand, ends⟩ := stands_read quote chars
  rw [closed] at ends
  cases ends with
  | closed after inLine =>
      rw [Body.slice, closed, Ending.slice, List.append_assoc, List.singleton_append,
        read_quoted stand inLine, ← closed]

end Offside.Literal
