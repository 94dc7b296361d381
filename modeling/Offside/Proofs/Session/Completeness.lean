import Offside.Proofs.Source.Concatenation
import Offside.Proofs.Token.Padding
import Offside.Session.Dialogue
import Mathlib.Data.List.DropRight

/-!
# When an input is complete

A dialogue guesses from the tokens of an input whether more lines must follow. The guess is right
about programs but for one ending: no program ends in the middle of a statement or of brackets, but
a program may end with the call marker, after which the dialogue asks for more.
-/

namespace Offside

open Token (Kind lastBut? lastBut?_append lastBut?_singleton)

/-! ## The last token -/

namespace Layout

/-- Line breaks write nothing. -/
theorem Steps.written_of_breaks {state after : State} {tokens written : List Token}
    (steps : Steps state tokens written after) (breaks : lastBut? .newline tokens = none) :
    written = [] := by
  induction steps with
  | refl => rfl
  | @head state middle after token rest written later stepped _ ih =>
      rw [← List.singleton_append, lastBut?_append, Option.or_eq_none_iff] at breaks
      have isBreak : token.kind = .newline := by simpa [lastBut?_singleton] using breaks.2
      rw [step_newline isBreak] at stepped
      obtain ⟨rfl, -⟩ := Prod.mk.inj (Except.ok.inj stepped)
      rw [List.nil_append, ih breaks.1]

/-- The last token is written last, unless it is a semicolon. -/
theorem Steps.last_written {state after : State} {tokens written : List Token} {token : Token}
    (steps : Steps state tokens written after) (last : lastBut? .newline tokens = some token)
    (other : token.kind ≠ .semicolon) (raw : token.kind ≠ .blockEnd) :
    lastBut? .blockEnd written = some token := by
  induction steps with
  | refl => cases last
  | @head state middle after first rest written later stepped steps ih =>
      rw [← List.singleton_append, lastBut?_append] at last
      rw [lastBut?_append]
      cases further : lastBut? .newline rest with
      | some token' =>
          rw [further, Option.some_or] at last
          rw [ih (further.trans last), Option.some_or]
      | none =>
          rw [further, Option.none_or, lastBut?_singleton] at last
          obtain ⟨inLine, same⟩ := Option.ite_none_left_eq_some.mp last
          obtain rfl := Option.some.inj same
          obtain ⟨before, entered, -, rfl, -⟩ := exists_enter inLine stepped
          have accepted : (entered.accept first).1 = [first] := by simp [State.accept, other]
          rw [steps.written_of_breaks further, accepted, lastBut?_append, lastBut?_singleton,
            if_neg raw]
          rfl

/-- The layout of a text ends with the ends of blocks, and the last token of the text before
them. -/
theorem last_normalize {before written : List Token} {endOfFile token : Token}
    (raw : ∀ token ∈ before, isLayout token.kind = false)
    (inner : ∀ token ∈ before, token.kind ≠ .endOfFile) (isEnd : endOfFile.kind = .endOfFile)
    (ran : normalize (before ++ [endOfFile]) = .ok (written ++ [endOfFile]))
    (last : lastBut? .newline before = some token) (other : token.kind ≠ .semicolon) :
    lastBut? .blockEnd written = some token := by
  obtain ⟨front, after, place, later, steps, ended, split⟩ := exists_steps inner ran
  rw [run_endOfFile isEnd] at ended
  obtain rfl := finish_eq ended
  rw [← List.append_assoc] at split
  obtain rfl := List.append_cancel_right split
  have notEnd : token.kind ≠ .blockEnd := fun isBlockEnd => by
    have genuine := raw token (List.mem_filter.mp (List.mem_of_getLast? last)).1
    rw [isBlockEnd] at genuine
    cases genuine
  rw [lastBut?_append, steps.last_written last other notEnd]
  simp [lastBut?, blockEnds, Token.inserted]

/-- Leaving tokens out that have no meaning leaves as many brackets open. -/
theorem foldl_depthAfter_significant (depth : Nat) (tokens : List Token) :
    ((significant depth tokens).map Token.kind).foldl depthAfter depth =
      (tokens.map Token.kind).foldl depthAfter depth := by
  induction tokens generalizing depth with
  | nil => rfl
  | cons token rest ih =>
      rw [significant, List.map_append, List.foldl_append, List.map_cons, List.foldl_cons, ← ih]
      congr 1
      split
      case isTrue dropped => exact (depthAfter_of_isDropped dropped).symm
      case isFalse => rfl

end Layout

namespace Source

/-- The last token of a text, line breaks and the end of file apart. -/
def finalToken? (source : String) (file : Option String) : Option Token :=
  match Token.scan source file with
  | .ok tokens =>
      (tokens.filter fun token => token.kind != .newline && token.kind != .endOfFile).getLast?
  | .error _ => none

namespace Stages

variable {source : String} {file : Option String} {program : Program} {before layout : List Token}

theorem finalToken?_eq (stages : Stages source file program before layout) :
    finalToken? source file = lastBut? .newline before := by
  have same : before.filter (fun token => token.kind != .newline && token.kind != .endOfFile) =
      before.filter (·.kind != .newline) :=
    List.filter_congr fun token member => by simp [stages.inner token member]
  rw [finalToken?, stages.scanned]
  dsimp only
  rw [List.filter_append, same]
  exact congrArg List.getLast? (List.append_nil _)

/-- No program ends with a token that asks for more. -/
theorem demands_final (stages : Stages source file program before layout) {token : Token}
    (last : finalToken? source file = some token) : Tree.demands token.kind = false := by
  by_cases isSemicolon : token.kind = .semicolon
  · rw [isSemicolon]
    rfl
  rw [stages.finalToken?_eq] at last
  obtain ⟨written, rfl, inner, -⟩ := stages.whole
  exact Tree.demands_last_of_parse inner rfl stages.parsed
    (Layout.last_normalize stages.not_layout stages.inner rfl stages.normalized last isSemicolon)

/-- The brackets of a program are balanced. -/
theorem balanced (stages : Stages source file program before layout) :
    (before.map Token.kind).foldl Layout.depthAfter 0 = 0 := by
  obtain ⟨written, rfl, inner, kept⟩ :=
    Layout.exists_written stages.not_layout stages.inner rfl stages.normalized
  obtain ⟨-, -, balanced⟩ := Tree.read_of_parse inner rfl stages.parsed
  rwa [Layout.foldl_depthAfter_withoutLayout, kept, Layout.foldl_depthAfter_significant] at balanced

end Stages

end Source

/-! ## The guess -/

namespace Session

/-- Whether a text ends with the call marker, blanks and comments apart. -/
def endsInMarker (text : String) : Bool :=
  (Source.finalToken? text none).any (·.kind == .bang)

/-- The count of a dialogue falls below zero at a closing bracket without an opening one, where that
of layout stays. -/
theorem bracketChange_le (kinds : List Kind) {balance : Int} {depth : Nat}
    (le : balance ≤ depth) :
    kinds.foldl (fun balance kind => balance + bracketChange kind) balance ≤
      (kinds.foldl Layout.depthAfter depth : Nat) := by
  induction kinds generalizing balance depth with
  | nil => exact le
  | cons kind rest ih =>
      refine ih ?_
      cases kind <;>
        simp [bracketChange, Layout.depthAfter, Kind.isOpening, Kind.isClosing] <;> omega

/-- Of the tokens that ask for more, only the call marker may end a program. -/
theorem expectsMore_iff_bang {kind : Kind} (rests : Tree.demands kind = false) :
    (Layout.opensBlock kind || Layout.expectsMore kind) = (kind == .bang) := by
  cases kind <;> first | rfl | cases rests

/-- A program asks for more exactly if it ends with the call marker. -/
theorem asksForMore_of_stages {text : String} {program : Program} {before layout : List Token}
    (stages : Source.Stages text none program before layout) :
    asksForMore (before ++ [Source.lastToken text none]) = endsInMarker text := by
  have balanced : ((before ++ [Source.lastToken text none]).map Token.kind).foldl
      Layout.depthAfter 0 = 0 := by
    rw [List.map_append, List.foldl_append, stages.balanced]
    rfl
  have closed : ((before ++ [Source.lastToken text none]).map Token.kind).foldl
      (fun depth kind => depth + bracketChange kind) 0 ≤ 0 := by
    have bound := bracketChange_le ((before ++ [Source.lastToken text none]).map Token.kind)
      (Int.le_refl ((0 : Nat) : Int))
    rwa [balanced] at bound
  have last : (((before ++ [Source.lastToken text none]).map Token.kind).filter
      fun kind => kind != .newline && kind != .endOfFile).getLast? =
        (Source.finalToken? text none).map Token.kind := by
    rw [List.filter_map, List.getLast?_map, Source.finalToken?, stages.scanned]
    rfl
  rw [asksForMore, last, decide_eq_false (Int.not_lt.mpr closed), Bool.false_or, endsInMarker]
  cases found : Source.finalToken? text none with
  | none => rfl
  | some token => exact expectsMore_iff_bang (stages.demands_final found)

end Session

/-! ## Commands -/

namespace Text

/-- The characters of white space. -/
def spaces : List Char :=
  (List.range' 9 5 ++ List.range' 28 5 ++ [0x85, 0xA0, 0x1680] ++ List.range' 0x2000 11 ++
    [0x2028, 0x2029, 0x202F, 0x205F, 0x3000]).map Char.ofNat

theorem mem_spaces {c : Char} (isSpace : isSpace c) : c ∈ spaces := by
  refine List.mem_map.mpr ⟨c.toNat, ?_, Char.ofNat_toNat c⟩
  simp only [Text.isSpace, Bool.or_eq_true, Bool.and_eq_true, decide_eq_true_eq, beq_iff_eq]
    at isSpace
  simp only [List.mem_append, List.mem_range'_1, List.mem_cons, List.not_mem_nil]
  omega

/-- A text without the white space at its ends is the beginning of what follows that at its start.
-/
theorem exists_of_trimChars {chars rest : List Char} {c : Char}
    (trimmed : trimChars chars = c :: rest) :
    ∃ before after, (∀ d ∈ before, isSpace d) ∧ chars = before ++ c :: after := by
  have start : trimChars chars <+: chars.dropWhile isSpace := List.rdropWhile_prefix _ _
  rw [trimmed] at start
  obtain ⟨after, split⟩ := start
  refine ⟨chars.takeWhile isSpace, rest ++ after, fun d => List.mem_takeWhile_imp, ?_⟩
  rw [← List.cons_append, split, List.takeWhile_append_dropWhile]

end Text

namespace Lexeme

/-- The characters that begin no lexeme of a statement: at most an operator with a colon. -/
def isForeign (c : Char) : Bool :=
  !isBlank c && c != '#' && c != '\n' && !Literal.isQuote c && !c.isDigit && !startsWord c &&
    Token.operators.all fun entry =>
      entry.1.toList.head?.any (· != c) || entry.2 == .declare || entry.2 == .colon

theorem isForeign_of_isSpace {c : Char} (isSpace : Text.isSpace c) :
    isBlank c ∨ c = '\n' ∨ isForeign c := by
  have table : Text.spaces.all fun c => isBlank c || c == '\n' || isForeign c := by
    decide +kernel
  simpa [or_assoc] using List.all_eq_true.mp table c (Text.mem_spaces isSpace)

/-- The tokens of foreign characters. -/
def startsNothing (kind : Kind) : Bool :=
  kind == .invalid || kind == .declare || kind == .colon

theorem token?_of_isForeign {c : Char} (foreign : isForeign c) (previous : Option Char)
    (rest : List Char) (location : Location) (segments : List Segment) :
    ∃ token, (read previous c rest).token? location segments = .ok (some token) ∧
      startsNothing token.kind := by
  simp only [isForeign, Bool.and_eq_true, bne_iff_ne, Bool.not_eq_true'] at foreign
  obtain ⟨⟨⟨⟨⟨⟨notBlank, notSign⟩, inLine⟩, unquoted⟩, notDigit⟩, notWord⟩, table⟩ := foreign
  rw [read, if_neg (by simp [notBlank]), if_neg notSign, if_neg inLine, if_neg (by simp [unquoted]),
    if_neg (by simp [notDigit]), if_neg (by simp [notWord])]
  cases found : operator? (c :: rest) with
  | none => exact ⟨_, rfl, rfl⟩
  | some entry =>
      obtain ⟨text, kind⟩ := entry
      have listed := List.all_eq_true.mp table _ (List.mem_of_find?_eq_some found)
      have here : text.toList.head? = some c := by
        have start := operator?_isPrefix found
        have nonempty := operator?_ne_nil found
        cases letters : text.toList with
        | nil => exact absurd letters nonempty
        | cons d more =>
            rw [letters] at start
            rw [(List.cons_prefix_cons.mp start).1]
            rfl
      have kinds : kind = .declare ∨ kind = .colon := by simpa [here] using listed
      rcases kinds with rfl | rfl
      · exact ⟨_, rfl, rfl⟩
      · exact ⟨_, rfl, rfl⟩

end Lexeme

namespace Token

/-- The first token, line breaks apart, starts no statement. -/
def StartsNothing (tokens : List Token) : Prop :=
  ∃ token, tokens.find? (fun token => token.kind != .newline && token.kind != .endOfFile) =
    some token ∧ Lexeme.startsNothing token.kind

theorem startsNothing_of_isForeign {previous : Option Char} {location : Location} {c : Char}
    {rest : List Char} {tokens : List Token} (foreign : Lexeme.isForeign c)
    (found : scanFrom previous location (c :: rest) = .ok tokens) : StartsNothing tokens := by
  rw [scanFrom] at found
  obtain ⟨segments, -, found⟩ := Layout.exists_of_bind_eq_ok found
  obtain ⟨token?, here, found⟩ := Layout.exists_of_bind_eq_ok found
  obtain ⟨later, -, found⟩ := Layout.exists_of_bind_eq_ok found
  obtain ⟨token, here', nothing⟩ :=
    Lexeme.token?_of_isForeign foreign previous rest location segments
  obtain rfl := Except.ok.inj (here.symm.trans here')
  obtain rfl := Except.ok.inj found
  refine ⟨token, List.find?_cons_of_pos ?_, nothing⟩
  generalize token.kind = kind at nothing
  cases kind <;> first | rfl | cases nothing

/-- The tokens of a command are those of no program. -/
theorem startsNothing_of_colon {previous : Option Char} {location : Location}
    {before rest : List Char} {tokens : List Token} (blank : ∀ c ∈ before, Text.isSpace c)
    (found : scanFrom previous location (before ++ ':' :: rest) = .ok tokens) :
    StartsNothing tokens := by
  induction before generalizing previous location tokens with
  | nil => exact startsNothing_of_isForeign (by decide +kernel) found
  | cons c before ih =>
      obtain ⟨here, further⟩ := List.forall_mem_cons.mp blank
      rcases Lexeme.isForeign_of_isSpace here with isBlank | rfl | foreign
      · rw [List.cons_append, scanFrom_blank isBlank] at found
        exact ih further found
      · obtain ⟨later, scanned, rfl⟩ := exists_of_scanFrom_newline found
        obtain ⟨token, first, nothing⟩ := ih further scanned
        exact ⟨token, by rwa [List.find?_cons_of_neg (by simp [lineBreak])], nothing⟩
      · exact startsNothing_of_isForeign foreign found

end Token

namespace Session

variable {text : String} {file : Option String} {program : Program}

/-- No program is a command. -/
theorem command?_of_stages {before layout : List Token}
    (stages : Source.Stages text file program before layout) : command? text = none := by
  unfold command?
  split
  case h_2 => rfl
  case h_1 rest trimmed =>
    obtain ⟨blanks, after, blank, split⟩ := Text.exists_of_trimChars trimmed
    have scanned := stages.scanned
    rw [Token.scan, Token.scanAt, split] at scanned
    obtain ⟨token, first, nothing⟩ := Token.startsNothing_of_colon blank scanned
    have first : Source.firstToken? text file = some token := by
      rw [Source.firstToken?, stages.scanned]
      exact first
    have starts := stages.startsStatement first
    generalize token.kind = kind at starts nothing
    cases kind <;> simp [Lexeme.startsNothing, Tree.startsStatement, Tree.startsArgument]
      at starts nothing

/-- A program is taken for incomplete if it ends with the call marker, or if it has several lines
and the last one is not empty. -/
theorem isIncomplete_of_program (accepted : Source.program text file = .ok program) :
    isIncomplete text = .ok (endsInMarker text ||
      (text.toList.contains '\n' && text.toList.getLast? != some '\n')) := by
  obtain ⟨program', accepted'⟩ : ∃ program', Source.program text none = .ok program' := by
    obtain ⟨before, layout, stages⟩ := Source.exists_stages accepted
    have moved := (Source.program_inFile stages.scanned none).1
    rw [accepted] at moved
    exact ⟨_, moved⟩
  obtain ⟨before, layout, stages⟩ := Source.exists_stages accepted'
  rw [isIncomplete, command?_of_stages stages, stages.scanned]
  simp [asksForMore_of_stages stages]

end Session

namespace Dialogue

theorem dropLineFeeds_eq {text : String} (inLine : '\n' ∉ text.toList) :
    dropLineFeeds text = text := by
  have kept : text.toList.reverse.dropWhile (· = '\n') = text.toList.reverse := by
    refine List.dropWhile_eq_self_iff.mpr fun nonempty => ?_
    simpa using ne_of_mem_of_not_mem (List.mem_reverse.mp (List.getElem_mem nonempty)) inLine
  rw [dropLineFeeds, kept, List.reverse_reverse, String.ofList_toList]

/-- A line that is a program is taken for incomplete exactly if it ends with the call marker. To any
other such line a dialogue responds at once. -/
theorem add_program_line {line : String} {file : Option String} {program : Program}
    (accepted : Source.program line file = .ok program) (inLine : '\n' ∉ line.toList)
    {dialogue : Dialogue} (fresh : dialogue.pending = none) (files : Files) :
    Session.isIncomplete line = .ok (Session.endsInMarker line) ∧
      dialogue.add files line =
        if Session.endsInMarker line then { dialogue with pending := some line }
        else dialogue.respond files line := by
  have guess : Session.isIncomplete line = .ok (Session.endsInMarker line) := by
    simpa [inLine] using Session.isIncomplete_of_program accepted
  refine ⟨guess, ?_⟩
  rw [add, fresh]
  dsimp only
  rw [guess]
  cases Session.endsInMarker line with
  | true => rfl
  | false =>
      dsimp only
      rw [dropLineFeeds_eq inLine]
      rfl

/-- A loop on one line, with a call marker in it and a comment at its end. -/
theorem add_program_line_loop :
    let line := "for (i, j) <- pairs!: print! (i, [j]); total += i # each"
    ∃ program, Source.program line none = .ok program ∧ '\n' ∉ line.toList ∧ ∀ session files,
      Session.isIncomplete line = .ok false ∧
        (start session).add files line = (start session).respond files line := by
  intro line
  have parses : (Source.program line none).toOption.isSome := by decide +kernel
  obtain ⟨program, accepted⟩ := Option.isSome_iff_exists.mp parses
  have accepted := Layout.eq_ok_of_toOption accepted
  have inLine : '\n' ∉ line.toList := by decide +kernel
  have unmarked : Session.endsInMarker line = false := by decide +kernel
  refine ⟨program, accepted, inLine, fun session files => ?_⟩
  have fresh : (start session).pending = none := rfl
  simpa [unmarked] using add_program_line accepted inLine fresh files

/-- A call without arguments is a program, but a dialogue asks for more after it, and it still does
after an empty line. -/
theorem call_awaits_more :
    (Source.program "tick!" none).toOption.isSome ∧ Session.isIncomplete "tick!" = .ok true ∧
      Session.isIncomplete "tick!\n" = .ok true ∧ ∀ session files,
        ((start session).add files "tick!").pending = some "tick!" := by
  have waits : Session.isIncomplete "tick!" = .ok true := by decide +kernel
  refine ⟨by decide +kernel, waits, by decide +kernel, fun session files => ?_⟩
  rw [add, start]
  dsimp only
  rw [waits]

end Dialogue

end Offside
