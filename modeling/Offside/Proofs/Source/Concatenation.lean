import Offside.Proofs.Location
import Offside.Proofs.Source.Consumers
import Offside.Proofs.Token.Concatenation
import Offside.Proofs.Tree.Concatenation

/-!
# Programs written one after another

Two texts that start at the same column can be put on lines of their own: the program of both has
the statements of the first and then those of the second, which only stand further down.
-/

namespace Offside

/-! ## Places on later lines -/

namespace Location

/-- The start of the line after a text. -/
theorem start_after_line (file : Option String) (chars : List Char) :
    ((start file).advanceAll chars).advance '\n' =
      below (chars.count '\n' + 1) (chars.length + 1) (start file) := by
  have line := advanceAll_line (start file) chars
  have offset := advanceAll_offset (start file) chars
  have place := advanceAll_file (start file) chars
  rw [advance, if_pos rfl, line, offset, place, below, mk.injEq]
  exact ⟨by omega, rfl, Nat.add_assoc .., rfl⟩

end Location

/-! ## Two texts -/

namespace Source

open Token (Kind Complete)
open Lexeme (isRaw)

/-- The first token of a text, line breaks and the end of file apart. -/
def firstToken? (source : String) (file : Option String) : Option Token :=
  match Token.scan source file with
  | .ok tokens => tokens.find? fun token => token.kind != .newline && token.kind != .endOfFile
  | .error _ => none

/-- The end of file of a text. -/
def lastToken (source : String) (file : Option String) : Token :=
  .inserted .endOfFile ((Location.start file).advanceAll source.toList)

/-- The stages of a text that has a program: tokens up to the end of file, and their layout. -/
structure Stages (source : String) (file : Option String) (program : Program)
    (before layout : List Token) : Prop where
  scanned : Token.scan source file = .ok (before ++ [lastToken source file])
  raw : ∀ token ∈ before, isRaw token.kind
  normalized : Layout.normalize (before ++ [lastToken source file]) = .ok layout
  parsed : Tree.parse layout = .ok program

theorem exists_stages {source : String} {file : Option String} {program : Program}
    (accepted : Source.program source file = .ok program) :
    ∃ before layout, Stages source file program before layout := by
  cases scans : Token.scan source file with
  | error overflow =>
      rw [Source.program, Source.tokens, scans] at accepted
      cases accepted
  | ok tokens =>
      rw [program_eq scans, programOf] at accepted
      obtain ⟨before, rfl, raw, -⟩ := Token.exists_scanFrom scans
      rw [← lastToken] at accepted
      cases normal : Layout.normalize (before ++ [lastToken source file]) with
      | error fault =>
          rw [normal] at accepted
          cases accepted
      | ok layout =>
          rw [normal] at accepted
          refine ⟨before, layout, scans, raw, normal, ?_⟩
          dsimp only at accepted
          cases parsed : Tree.parse layout with
          | error wrong =>
              rw [parsed] at accepted
              cases accepted
          | ok result =>
              rw [parsed] at accepted
              exact congrArg _ (Except.ok.inj accepted)

namespace Stages

variable {source : String} {file : Option String} {program : Program} {before layout : List Token}

theorem not_layout (stages : Stages source file program before layout) :
    ∀ token ∈ before, Layout.isLayout token.kind = false := fun token member => by
  have raw := stages.raw token member
  simp only [isRaw, Bool.and_eq_true, Bool.not_eq_true'] at raw
  exact raw.1

theorem inner (stages : Stages source file program before layout) :
    ∀ token ∈ before, token.kind ≠ .endOfFile := fun token member isEnd => by
  have raw := stages.raw token member
  simp [isRaw, isEnd] at raw

theorem firstToken?_eq (stages : Stages source file program before layout) :
    firstToken? source file = before.find? (·.kind != .newline) := by
  have same : before.find? (fun token => token.kind != .newline && token.kind != .endOfFile) =
      before.find? (·.kind != .newline) :=
    List.find?_congr fun token member => by simp [stages.inner token member]
  rw [firstToken?, stages.scanned]
  dsimp only
  rw [List.find?_append, same]
  cases before.find? (·.kind != .newline) <;> rfl

/-- The layout of a program ends at its end of file, brackets are balanced in it, and every token of
the text is valid. -/
theorem whole (stages : Stages source file program before layout) :
    ∃ written, layout = written ++ [lastToken source file] ∧
      (∀ token ∈ written, token.kind ≠ .endOfFile) ∧
      (∀ token ∈ before, token.kind ≠ .invalid) ∧
      (layout.map Token.kind).foldl Layout.depthAfter 0 = 0 := by
  obtain ⟨written, rfl, inner, kept⟩ :=
    Layout.exists_written stages.not_layout stages.inner rfl stages.normalized
  obtain ⟨-, valid, balanced⟩ := Tree.read_of_parse inner rfl stages.parsed
  refine ⟨written, rfl, inner, fun token member isInvalid => ?_, ?_⟩
  · have remains : token ∈ Layout.withoutLayout written := by
      rw [kept]
      exact Layout.mem_significant member (by simp [isInvalid]) (by simp [isInvalid])
    exact valid token (List.mem_filter.mp remains).1 isInvalid
  · rw [List.map_append, List.foldl_append, balanced]
    rfl

/-- The first token of a program is a semicolon or starts a statement. -/
theorem startsStatement (stages : Stages source file program before layout) {token : Token}
    (first : firstToken? source file = some token) :
    token.kind = .semicolon ∨ Tree.startsStatement token.kind := by
  rw [stages.firstToken?_eq] at first
  have member := List.mem_of_find?_eq_some first
  by_cases isSemicolon : token.kind = .semicolon
  · exact .inl isSemicolon
  have written : layout.head? = some token :=
    Layout.head_run_initial (by rw [List.find?_append, first]; rfl) (stages.inner token member)
      isSemicolon stages.normalized
  obtain ⟨rest, rfl⟩ := List.head?_eq_some_iff.mp written
  have unseparated : Tree.skip (token :: rest) = token :: rest := by
    refine Tree.skip_eq_self fun separates => ?_
    have raw := stages.not_layout token member
    rw [Tree.headToken_cons] at separates
    simp [separates, Layout.isLayout] at raw
  have starts := Tree.head_of_parse stages.parsed
  rw [unseparated, Tree.headToken_cons] at starts
  exact .inr (starts.resolve_left (stages.inner token member))

/-- The first token of a program goes on with no earlier line. -/
theorem starts (stages : Stages source file program before layout) {token : Token}
    (first : firstToken? source file = some token) :
    Layout.continuesLine token.kind = false ∨ token.kind = .minus := by
  have starts := stages.startsStatement first
  generalize token.kind = kind at starts
  rcases starts with rfl | starts
  · exact .inl rfl
  · cases kind <;> first | exact .inl rfl | exact .inr rfl | cases starts

/-- A program can be moved, and its layout moves with it. -/
theorem moved (stages : Stages source file program before layout) {move : Location → Location}
    (column : ∀ location, (move location).column = location.column) :
    Layout.normalize ((before ++ [lastToken source file]).map (Token.relocate move)) =
      .ok (layout.map (Token.relocate move)) ∧
    Tree.parse (layout.map (Token.relocate move)) = .ok (Node.relocateBlock move program) := by
  have complete := complete_scan stages.scanned
  have complete' := Layout.complete_normalize complete
  rw [stages.normalized] at complete'
  have outcomes := Tree.outcomes_parse column complete'
  rw [stages.parsed] at outcomes
  refine ⟨?_, ?_⟩
  · rw [Layout.normalize_relocate column complete, stages.normalized]
    rfl
  · generalize Tree.parse (layout.map (Token.relocate move)) = parsed at outcomes ⊢
    cases parsed with
    | error wrong => exact outcomes.elim
    | ok program' => exact congrArg _ outcomes

/-- The first token of a program that moves. -/
theorem find?_moved (stages : Stages source file program before layout)
    (move : Location → Location) {moved : Token}
    (found : ((before ++ [lastToken source file]).map (Token.relocate move)).find?
      (·.kind != .newline) = some moved) (other : moved.kind ≠ .endOfFile) :
    ∃ token, firstToken? source file = some token ∧ moved = token.relocate move := by
  have kinds : (·.kind != .newline) ∘ Token.relocate move = (·.kind != .newline) :=
    funext fun token => by simp
  rw [List.find?_map, kinds, List.find?_append] at found
  obtain ⟨token, here, rfl⟩ := Option.map_eq_some_iff.mp found
  refine ⟨token, ?_, rfl⟩
  rw [stages.firstToken?_eq]
  cases first : before.find? (·.kind != .newline) with
  | some token' =>
      rw [first] at here
      exact here
  | none =>
      rw [first] at here
      obtain rfl : lastToken source file = token := Option.some.inj here
      exact absurd rfl other

/-- The tokens of a program, and on the next line those of another text. -/
theorem scan_append_line (stages : Stages source file program before layout) {second : String}
    {tokens : List Token} (scanned : Token.scan second file = .ok tokens) :
    Token.scan (source ++ "\n" ++ second) file =
      .ok (before ++ Token.lineBreak ((Location.start file).advanceAll source.toList) ::
        tokens.map (Token.relocate
          (Location.below (source.toList.count '\n' + 1) (source.length + 1)))) := by
  obtain ⟨found, split, -, continued⟩ := Token.exists_scanFrom stages.scanned
  obtain rfl : before = found := List.append_cancel_right split
  obtain ⟨-, -, -, valid, -⟩ := stages.whole
  have later := continued valid second.toList
  have steady := Location.steady_below (source.toList.count '\n' + 1) (source.length + 1)
  have there := Token.scanFrom_relocate steady none (.start file) second.toList
  have scanned : Token.scanFrom none (.start file) second.toList = .ok tokens := scanned
  rw [Location.start_after_line, String.length_toList, there, scanned] at later
  rw [Token.scan, Token.scanAt]
  simpa using later

theorem depth_endOfFile (stages : Stages source file program before layout) :
    ∀ token ∈ layout, token.kind = .endOfFile → token.depth = 0 := fun token member isEnd => by
  have complete := Layout.complete_normalize (complete_scan stages.scanned)
  rw [stages.normalized] at complete
  exact (complete.each token member).depth_eq_zero (by simp [isEnd])

end Stages

/-- Two programs that start at the same column, one after the other on lines of their own, are one
program. Its statements are those of the first and then those of the second, further down. -/
theorem program_append_line {first second : String} {file : Option String}
    {program program' : Program} (accepted : Source.program first file = .ok program)
    (accepted' : Source.program second file = .ok program')
    (aligned : ∀ token token', firstToken? first file = some token →
      firstToken? second file = some token' → token.location.column = token'.location.column) :
    ∃ whole, Source.program (first ++ "\n" ++ second) file = .ok whole ∧
      whole.statements = program.statements ++ program'.statements.map
        (Node.relocate (Location.below (first.toList.count '\n' + 1) (first.length + 1))) := by
  obtain ⟨before, layout, stages⟩ := exists_stages accepted
  obtain ⟨before', layout', stages'⟩ := exists_stages accepted'
  have scanned := stages.scan_append_line stages'.scanned
  have steady := Location.steady_below (first.toList.count '\n' + 1) (first.length + 1)
  generalize Location.below (first.toList.count '\n' + 1) (first.length + 1) = move
    at scanned steady ⊢
  obtain ⟨normalized, parsed⟩ := stages'.moved steady.column
  obtain ⟨written, rfl, inner, -, -⟩ := stages'.whole
  obtain ⟨-, -, -, -, balanced⟩ := stages.whole
  -- The first token of the second text, which keeps its column when it moves.
  have starts : ∀ column, Layout.firstColumn? before = some column → ∀ token,
      ((before' ++ [lastToken second file]).map (Token.relocate move)).find? (·.kind != .newline) =
        some token → token.kind ≠ .endOfFile → token.location.column = column ∧
          (Layout.continuesLine token.kind = false ∨ token.kind = .minus) := by
    intro column here moved found other
    obtain ⟨token, second, rfl⟩ := stages'.find?_moved move found other
    obtain ⟨token', first, rfl⟩ := Option.map_eq_some_iff.mp here
    rw [← stages.firstToken?_eq] at first
    rw [Token.relocate_kind, Token.relocate_location, steady.column]
    exact ⟨(aligned token' token first second).symm, stages'.starts second⟩
  have isBreak :
      (Token.lineBreak ((Location.start file).advanceAll first.toList)).kind = .newline := rfl
  obtain ⟨whole, normalized', joined⟩ := Layout.normalize_joined stages.not_layout stages.inner rfl
    isBreak (by simp) stages.normalized normalized balanced starts
  obtain ⟨result, parsed', same⟩ := Tree.parse_joined joined (List.map_append ..)
    (by simpa using inner) rfl stages.depth_endOfFile stages.parsed parsed
  refine ⟨result, ?_, ?_⟩
  · rw [program_eq scanned, programOf, normalized']
    exact congrArg (Except.mapError Rejection.defect) parsed'
  · rw [same, Node.statements_relocateBlock]

theorem exists_program {source : String} {file : Option String} {count : Nat}
    (counted : (Source.program source file).toOption.map (·.statements.length) = some count) :
    ∃ program, Source.program source file = .ok program ∧ program.statements.length = count := by
  obtain ⟨program, found, length⟩ := Option.map_eq_some_iff.mp counted
  exact ⟨program, Layout.eq_ok_of_toOption found, length⟩

/-- A conditional with an open block and a semicolon at its end, and on the next line a negation,
which does not go on with it. -/
theorem program_append_line_negation :
    let first := "  if x then\n      y ; # done"
    let second := "  -z\n    .f!"
    ∃ program program' whole, program.statements.length = 1 ∧ program'.statements.length = 1 ∧
      Source.program first none = .ok program ∧ Source.program second none = .ok program' ∧
      Source.program (first ++ "\n" ++ second) none = .ok whole ∧
      whole.statements = program.statements ++ program'.statements.map
        (Node.relocate (Location.below 2 29)) := by
  intro first second
  obtain ⟨program, accepted, count⟩ : ∃ program, Source.program first none = .ok program ∧
      program.statements.length = 1 := exists_program (by decide +kernel)
  obtain ⟨program', accepted', count'⟩ : ∃ program, Source.program second none = .ok program ∧
      program.statements.length = 1 := exists_program (by decide +kernel)
  have column : (firstToken? first none).map (·.location.column) = some 3 := by decide +kernel
  have column' : (firstToken? second none).map (·.location.column) = some 3 := by decide +kernel
  have aligned (token token' : Token) (here : firstToken? first none = some token)
      (there : firstToken? second none = some token') :
      token.location.column = token'.location.column := by
    rw [here] at column
    rw [there] at column'
    exact Option.some.inj (column.trans column'.symm)
  have lines : first.toList.count '\n' + 1 = 2 := by decide +kernel
  have characters : first.length + 1 = 29 := by decide +kernel
  obtain ⟨whole, joined, statements⟩ := program_append_line accepted accepted' aligned
  rw [lines, characters] at statements
  exact ⟨program, program', whole, count, count', accepted, accepted', joined, statements⟩

end Source

end Offside
