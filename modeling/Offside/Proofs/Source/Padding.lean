import Offside.Proofs.Layout.Padding
import Offside.Proofs.Source.Concatenation

/-!
# Comments and blank lines in a program

Comments and blank lines mean nothing: a text with more of them at the ends of its lines has the
same program up to lines and offsets. The columns are all the same, but for the column of a program
without statements, which stands where its text ends.
-/

namespace Offside

open Layout (EndsElsewhere)
open Lexeme (Inert)

/-! ## The place of a program -/

namespace Tree

theorem location_of_parse {tokens : List Token} {program : Program}
    (parsed : parse tokens = .ok program) : program.location = (headToken tokens).location := by
  rw [parse_eq] at parsed
  obtain ⟨result, -, parsed⟩ := Layout.exists_of_bind_eq_ok parsed
  rw [← Except.ok.inj parsed]

theorem ne_nil_of_parseFurther {below : Level} {statement : Node} {tokens rest : List Token}
    {statements : List Node}
    (found : parseFurther below .endOfFile statement tokens = .ok (statements, rest)) :
    statements ≠ [] := by
  rintro rfl
  by_cases isEnd : (headToken tokens).kind = .endOfFile
  · rw [parseFurther_at_end _ isEnd] at found
    cases found
  · rw [parseFurther_of_inner _ isEnd] at found
    split at found
    · obtain ⟨result, -, found⟩ := Layout.exists_of_bind_eq_ok found
      cases found
    · cases found

/-- A program has no statements only if its tokens have ended already. -/
theorem statements_eq_nil_iff {tokens : List Token} {program : Program}
    (parsed : parse tokens = .ok program) (first : (headToken tokens).kind ≠ .statementEnd) :
    program.statements = [] ↔ (headToken tokens).kind = .endOfFile := by
  obtain ⟨interpolate, rest, found⟩ := parseStatements_of_parse parsed
  have stays : skip tokens = tokens := skip_eq_self first
  by_cases isEnd : (headToken tokens).kind = .endOfFile
  · rw [parseStatements_at_end _ _ .endOfFile (by rwa [stays])] at found
    obtain ⟨none, -⟩ := Prod.mk.inj (Except.ok.inj found)
    exact iff_of_true none.symm isEnd
  · refine iff_of_false (fun none => ?_) isEnd
    rw [parseStatements_of_inner _ _ (by rwa [stays])] at found
    obtain ⟨⟨statement, later⟩, -, found⟩ := Layout.exists_of_bind_eq_ok found
    exact ne_nil_of_parseFurther found none

/-- A layout whose end of file stands elsewhere has the same program, at the same place if it has
statements. -/
theorem parse_endsElsewhere {tokens tokens' : List Token} (same : EndsElsewhere tokens tokens')
    {used : List Token} {last : Token} (split : tokens = used ++ [last])
    (inner : ∀ token ∈ used, token.kind ≠ .endOfFile) (flat : last.depth = 0) {program : Program}
    (parsed : parse tokens = .ok program) :
    ∃ program', parse tokens' = .ok program' ∧ program'.statements = program.statements ∧
      (program.statements ≠ [] → program'.location = program.location) := by
  obtain ⟨written, count, location, location', isEnd, isEnd'⟩ := same
  rename_i endOfFile endOfFile'
  rw [← List.append_assoc] at split
  obtain ⟨rfl, same⟩ := List.append_inj' split rfl
  obtain rfl : endOfFile = last := (List.cons.inj same).1
  have flats : ∀ token ∈ written ++ (Layout.blockEnds count location ++ [endOfFile]),
      token.kind = .endOfFile → token.depth = 0 := by
    intro token member ended
    rw [← List.append_assoc, List.mem_append, List.mem_singleton] at member
    obtain rfl := member.resolve_left fun within => inner token within ended
    exact flat
  have empty : parse [endOfFile'] = .ok ⟨[], endOfFile'.location⟩ :=
    parse_of_statements (statements_endOfFile isEnd' _ _) isEnd'
  obtain ⟨program', parsed', statements⟩ := parse_joined
    (.last count location location' (List.forall_mem_append.mp inner).1 isEnd isEnd' rfl)
    (List.nil_append _).symm (List.forall_mem_nil _) isEnd' flats parsed empty
  rw [List.append_nil] at statements
  refine ⟨program', parsed', statements, fun some => ?_⟩
  rw [location_of_parse parsed, location_of_parse parsed']
  cases written with
  | cons => rfl
  | nil =>
      -- A program with statements does not start with the end of a block or of the file.
      cases count with
      | zero =>
          refine absurd ((statements_eq_nil_iff parsed ?_).mpr isEnd) some
          exact fun separates => by simp [Layout.blockEnds, isEnd] at separates
      | succ count => rcases head_of_parse parsed with ended | starts <;> contradiction

end Tree

namespace Source

/-- A line of a text ends at an offset, where there is a token for its line feed. -/
def EndsLine (source : String) (offset : Nat) : Prop :=
  ∃ tokens, Token.scan source none = .ok tokens ∧
    ∃ token ∈ tokens, token.kind = .newline ∧ token.location.offset = offset

instance (source : String) (offset : Nat) : Decidable (EndsLine source offset) :=
  match scanned : Token.scan source none with
  | .ok tokens =>
      decidable_of_iff (∃ token ∈ tokens, token.kind = .newline ∧ token.location.offset = offset)
        ⟨fun found => ⟨tokens, scanned, found⟩, fun ⟨_, again, found⟩ =>
          Except.ok.inj (scanned.symm.trans again) ▸ found⟩
  | .error _ => isFalse fun ⟨_, again, _⟩ => nomatch scanned.symm.trans again

/-- The second text is the first one with comments and blank lines inserted where its lines end, and
perhaps at its start. -/
inductive Padded (source : String) : String → Prop
  | inside {rest : List Char} (padded : Token.Padded (EndsLine source) 0 source.toList rest) :
      Padded source (String.ofList rest)
  | before {filler rest : List Char} (inert : Inert filler)
      (padded : Token.Padded (EndsLine source) 0 source.toList rest) :
      Padded source (String.ofList (filler ++ '\n' :: rest))

namespace Stages

variable {source text : String} {file : Option String} {program : Program}
  {before layout : List Token} (stages : Stages source file program before layout)

include stages

theorem breaksFrom :
    Token.BreaksFrom (EndsLine source) 0 (before ++ [lastToken source file]) := by
  rintro place ⟨tokens, scanned, token, member, isBreak, same⟩ -
  rw [scan_inFile source file none, stages.scanned] at scanned
  obtain rfl := Except.ok.inj scanned
  obtain ⟨token, original, rfl⟩ := List.mem_map.mp member
  exact ⟨token, original, by simpa using isBreak, by simpa [Location.inFile] using same⟩

/-- The tokens of a text with comments and blank lines. -/
theorem exists_spaced (padded : Padded source text) :
    ∃ breaks tokens, (∀ token ∈ breaks, token.kind = .newline) ∧ Token.scan text file = .ok tokens ∧
      Token.Spaced (breaks ++ Token.flat (before ++ [lastToken source file]))
        (Token.flat tokens) := by
  obtain ⟨-, -, -, valid, -⟩ := stages.whole
  have valid : ∀ token ∈ before ++ [lastToken source file], token.kind ≠ .invalid :=
    List.forall_mem_append.mpr ⟨valid, by simp [lastToken, Token.inserted]⟩
  have scanned {rest : List Char}
      (padded : Token.Padded (EndsLine source) 0 source.toList rest) :=
    Token.scanFrom_padded stages.scanned valid stages.breaksFrom padded
  rw [Token.scan, Token.scanAt]
  cases padded with
  | inside padded =>
      obtain ⟨tokens, found, spaced⟩ := scanned padded
      exact ⟨[], tokens, by simp, by simpa using found, spaced⟩
  | @before filler rest inert padded =>
      obtain ⟨tokens, found, spaced⟩ := scanned padded
      -- The first line break moves the text down, to the same columns.
      have moved : Token.scanFrom none ((Location.start file).advance '\n') rest =
          .ok (tokens.map (Token.relocate (Location.below 1 1))) := by
        have there := Token.scanFrom_relocate (Location.steady_below 1 1) none (.start file) rest
        rw [found] at there
        exact there
      rw [← Token.flat_below 1 1 tokens] at spaced
      obtain ⟨tokens', found', spaced'⟩ := Token.exists_scanFrom_line inert none moved spaced
      exact ⟨[_], tokens', List.forall_mem_singleton.mpr rfl, by simpa using found', spaced'⟩

/-- A program without statements stands at the end of its text. -/
theorem location_of_nil (none : program.statements = []) :
    program.location = (Location.start file).advanceAll source.toList := by
  obtain ⟨written, rfl, inner, -, -⟩ := stages.whole
  rw [Tree.location_of_parse stages.parsed]
  cases written with
  | nil => rfl
  | cons first rest =>
      have raw : ∀ token ∈ before ++ [lastToken source file],
          Layout.isLayout token.kind = false :=
        List.forall_mem_append.mpr ⟨stages.not_layout, List.forall_mem_singleton.mpr rfl⟩
      obtain ⟨⟨follows, -⟩, -, -⟩ := Layout.run_spec Layout.sound_initial raw stages.normalized
      have opens : first.kind ≠ .statementEnd := fun separates => by
        rw [separates] at follows
        obtain ⟨_, impossible, -⟩ := follows
        cases impossible
      have ended : first.kind = .endOfFile :=
        (Tree.statements_eq_nil_iff stages.parsed opens).mp none
      exact absurd ended (inner first List.mem_cons_self)

end Stages

/-- Comments and blank lines change nothing in a program but lines and offsets. A program without
statements stands at the end of its text. -/
theorem program_padded {source text : String} {file : Option String} {program : Program}
    (accepted : Source.program source file = .ok program) (padded : Padded source text) :
    ∃ program', Source.program text file = .ok program' ∧
      program'.statements.map (Node.relocate Location.flatten) =
        program.statements.map (Node.relocate Location.flatten) ∧
      (program.statements ≠ [] → program'.location.flatten = program.location.flatten) ∧
      (program.statements = [] →
        program'.location = (Location.start file).advanceAll text.toList) := by
  obtain ⟨before, layout, stages⟩ := exists_stages accepted
  obtain ⟨breaks, tokens, each, scanned, spaced⟩ := stages.exists_spaced padded
  have column (location : Location) : location.flatten.column = location.column := rfl
  obtain ⟨normalized, parsed⟩ := stages.moved column
  obtain ⟨written, rfl, inner, -, -⟩ := stages.whole
  rw [← Layout.normalize_breaks each (by simp)] at normalized
  obtain ⟨layout', normalized', same⟩ := Layout.run_spaced spaced normalized (.start none)
  obtain ⟨flattened, parsed', statements, location⟩ := Tree.parse_endsElsewhere same
    (List.map_append ..) (by simpa using inner) rfl parsed
  have found : programOf (Token.flat tokens) = .ok flattened := by
    rw [programOf, Layout.normalize, normalized']
    exact congrArg (Except.mapError Rejection.defect) parsed'
  rw [Token.flat, (programOf_relocate column (complete_scan scanned)).1, ← program_eq scanned]
    at found
  obtain ⟨program', accepted', rfl⟩ := exists_of_relocateResult found
  have statements : program'.statements.map (Node.relocate Location.flatten) =
      program.statements.map (Node.relocate Location.flatten) := by simpa using statements
  refine ⟨program', accepted', statements, fun some => ?_, fun none => ?_⟩
  · simpa using location (by simpa using some)
  · obtain ⟨before', layout', stages'⟩ := exists_stages accepted'
    exact stages'.location_of_nil (by simpa [none] using statements)

/-- A comment on the first line, one at the end of a line that opens a block, and a blank line in
the block. -/
theorem program_padded_block :
    let source := "if x then\n  y"
    let text := "\t#on\nif x then #so\n\n  y "
    ∃ program program', Source.program source none = .ok program ∧
      program.statements.length = 1 ∧ Source.program text none = .ok program' ∧
      program'.statements.map (Node.relocate Location.flatten) =
        program.statements.map (Node.relocate Location.flatten) ∧
      program'.location.flatten = program.location.flatten := by
  intro source text
  obtain ⟨program, accepted, count⟩ : ∃ program, Source.program source none = .ok program ∧
      program.statements.length = 1 := exists_program (by decide +kernel)
  have top : Inert ['\t', '#', 'o', 'n'] :=
    .blank rfl (.comment (by decide : '\n' ∉ ['o', 'n']) (by simp) .nil)
  have why : Inert [' ', '#', 's', 'o', '\n'] :=
    .blank rfl (.comment (by decide : '\n' ∉ ['s', 'o']) (by simp) (.newline .nil))
  have line : EndsLine source (0 + "if x then".toList.length) := by decide +kernel
  have split : source.toList = "if x then".toList ++ '\n' :: ("  y".toList ++ []) := by
    decide +kernel
  have split' : text = String.ofList (['\t', '#', 'o', 'n'] ++ '\n' :: ("if x then".toList ++
      ([' ', '#', 's', 'o', '\n'] ++ '\n' :: ("  y".toList ++ [' '])))) := by decide +kernel
  have padded : Padded source text := split' ▸ .before top
    (split ▸ .append_left _ (.line line why (.append_left _ (.last (.blank rfl .nil)))))
  obtain ⟨program', accepted', statements, location, -⟩ := program_padded accepted padded
  refine ⟨program, program', accepted, count, accepted', statements, location fun none => ?_⟩
  rw [none] at count
  cases count

/-- A blank in a text without statements moves its program, and a blank before the line feed of a
literal breaks the literal. -/
theorem changed_by_blanks :
    let literal := "\x60\x7b1 # \"\\\n+ 2 # \"\x7d\x60"
    let broken := "\x60\x7b1 # \"\\ \n+ 2 # \"\x7d\x60"
    (Padded "" " " ∧ (Source.program "" none).toOption.map (·.location.column) = some 1 ∧
      (Source.program " " none).toOption.map (·.location.column) = some 2) ∧
    (Token.Padded (literal.toList[·]? = some '\n') 0 literal.toList broken.toList ∧
      (Source.program literal none).isOk ∧ ¬(Source.program broken none).isOk) := by
  intro literal broken
  have split : literal.toList =
      "\x60\x7b1 # \"\\".toList ++ '\n' :: "+ 2 # \"\x7d\x60".toList := by decide +kernel
  have split' : broken.toList =
      "\x60\x7b1 # \"\\".toList ++ ([' '] ++ '\n' :: "+ 2 # \"\x7d\x60".toList) := by
    decide +kernel
  refine ⟨⟨.inside (.last (.blank rfl .nil)), by decide +kernel, by decide +kernel⟩, ?_,
    by decide +kernel, by decide +kernel⟩
  rw [split, split']
  refine .append_left _ (.line (by decide +kernel) (.blank rfl .nil) ?_)
  simpa using Token.Padded.append_left _ (.last .nil)

end Source

end Offside
