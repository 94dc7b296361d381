import Offside.Proofs.Source.Consumers
import Offside.Proofs.Token.Invalid
import Offside.Proofs.Tree.Termination

/-!
# Why texts are rejected

A text with a piece that forms no token is never accepted, and if such a piece is reported, then it
is the first one. The ends of blocks are never missed: layout closes all blocks before the end of
file, so a parser that stops inside of a block stops for another reason.
-/

namespace Offside

open Token (Raw Ended Regular nestedAll)

namespace Token

/-! ## The end of a list -/

theorem regular_cons {token : Token} {rest : List Token} :
    Regular (token :: rest) ↔ Regular [token] ∧ Regular rest := by
  rw [← List.singleton_append, regular_append]

theorem Ended.of_cons {token : Token} {rest : List Token} (ended : Ended (token :: rest))
    (other : token.kind ≠ .endOfFile) : Ended rest := by
  obtain ⟨before, last, split, isEnd, inner⟩ := ended
  cases before with
  | nil =>
      obtain ⟨rfl, -⟩ := List.cons.inj split
      exact absurd isEnd other
  | cons first before =>
      obtain ⟨-, rfl⟩ := List.cons.inj split
      exact ⟨before, last, rfl, isEnd, fun token member =>
        inner token (List.mem_cons_of_mem first member)⟩

theorem Ended.eq_singleton {tokens : List Token} (ended : Ended tokens)
    (isEnd : (Tree.headToken tokens).kind = .endOfFile) :
    ∃ last, tokens = [last] ∧ last.kind = .endOfFile := by
  obtain ⟨before, last, rfl, lastEnd, inner⟩ := ended
  cases before with
  | nil => exact ⟨last, rfl, lastEnd⟩
  | cons first before => exact absurd isEnd (inner first List.mem_cons_self)

end Token

namespace Tree

open Token (firstInvalid?)

/-! ## Tokens passed over -/

theorem Passed.ended {interpolate : List Token → Except Defect Node} {before after : Nat}
    {tokens rest : List Token} (passed : Passed interpolate before tokens after rest)
    (ended : Ended tokens) : Ended rest := by
  induction passed with
  | refl => exact ended
  | @cons _ _ _ tokens _ crossed _ _ ih =>
      have inner : (headToken tokens).kind ≠ .endOfFile := by
        intro isEnd
        rw [isEnd] at crossed
        cases crossed
      cases tokens with
      | nil => exact absurd rfl inner
      | cons token later =>
          rw [headToken_cons] at inner
          rw [next_cons inner] at ih
          exact ih (ended.of_cons inner)

/-- A defect that fits tokens with this first invalid one: it does not concern the ends of blocks
and files, and an invalid token is that one. -/
def Defect.Fits (invalid? : Option Token) (defect : Defect) : Prop :=
  match defect.flaw with
  | .invalid token => invalid? = some token
  | .unexpected expectation _ => expectation.isInner
  | _ => True

/-- An outcome that fits tokens with this first invalid one. -/
def Judges {α : Type} (invalid? : Option Token) : Except Defect α → Prop
  | .ok _ => invalid? = none
  | .error defect => defect.Fits invalid?

theorem Defect.Fits.or {first : Option Token} {defect : Defect} (fits : defect.Fits first)
    (second : Option Token) : defect.Fits (first.or second) := by
  obtain ⟨flaw, recorded⟩ := defect
  cases flaw with
  | invalid token =>
      obtain rfl : first = some token := fits
      exact rfl
  | _ => exact fits

theorem Judges.bind {α β : Type} {first second : Option Token} {outcome : Except Defect α}
    {goOn : α → Except Defect β} (judges : Judges first outcome)
    (goesOn : ∀ result, Judges second (goOn result)) :
    Judges (first.or second) (outcome >>= goOn) := by
  cases outcome with
  | ok result =>
      obtain rfl : first = none := judges
      exact goesOn result
  | error defect => exact Defect.Fits.or judges second

theorem Judges.map {α β : Type} {invalid? : Option Token} {outcome : Except Defect α}
    (judges : Judges invalid? outcome) (build : α → β) :
    Judges invalid? (outcome >>= fun result => .ok (build result)) := by
  rw [← Option.or_none (o := invalid?)]
  exact judges.bind fun _ => rfl

theorem fits_ofToken {expectation : Expectation} (isInner : expectation.isInner) (token : Token)
    (rest : List Token) :
    (Defect.ofToken expectation token).Fits (firstInvalid? (token :: rest)) := by
  unfold Defect.ofToken
  split
  case isTrue invalid => exact Token.firstInvalid?_of_invalid invalid rest
  case isFalse => exact isInner

/-- Interpolated expressions are judged rightly. -/
def Faithful (interpolate : List Token → Except Defect Node) : Prop :=
  ∀ inner, Raw inner → Regular inner → Judges (firstInvalid? inner) (interpolate inner)

section Faithful

variable {interpolate : List Token → Except Defect Node} (faithful : Faithful interpolate)

include faithful

theorem judges_parseParts {segments : List Segment}
    (each : ∀ inner text, .expression inner text ∈ segments → Raw inner ∧ Regular inner) :
    Judges ((Segment.nestedAll segments).find? (·.kind == .invalid))
      (parseParts interpolate segments) := by
  induction segments with
  | nil => exact rfl
  | cons segment rest ih =>
      have later := ih fun inner text member => each inner text (List.mem_cons_of_mem _ member)
      cases segment with
      | text content => exact later.map _
      | expression tokens source =>
          obtain ⟨raw, regular⟩ := each tokens source List.mem_cons_self
          rw [Segment.nestedAll, List.find?_append]
          exact (faithful tokens raw regular).bind fun node => later.map _

/-- What is judged of a string literal in front. -/
theorem judges_literal {token : Token} (regular : Regular [token]) {segments : List Segment}
    (isString : token.kind = .string) (payload : token.payload = .segments segments) :
    Judges (firstInvalid? [token]) (parseParts interpolate segments) := by
  obtain ⟨genuine, inside⟩ := Token.regular_singleton.mp regular
  rw [Token.firstInvalid?_literal isString payload]
  have parts : token.payload.parts = segments := by rw [payload]; rfl
  rw [parts] at inside
  refine judges_parseParts faithful fun inner text part => ⟨?_, inside inner text part⟩
  exact genuine.raw inner text (by rwa [parts])

omit faithful in
theorem blocks_of_crosses {token : Token} {before after : Nat}
    (crossed : crosses token.kind before after) (rest : List Token) :
    before + Layout.starts (token :: rest) + Layout.ends rest =
      after + Layout.ends (token :: rest) + Layout.starts rest := by
  simp only [Layout.starts, Layout.ends, List.countP_cons]
  cases kind : token.kind <;> simp_all [crosses] <;> omega

/-- What is known of a list that is reached from another one. -/
structure Reached (before : Nat) (tokens : List Token) (after : Nat) (rest : List Token) :
    Prop where
  regular : Regular rest
  invalid : firstInvalid? tokens = firstInvalid? rest
  /-- Blocks are started and ended in between. -/
  blocks : before + Layout.starts tokens + Layout.ends rest =
    after + Layout.ends tokens + Layout.starts rest

theorem Passed.reached {before after : Nat} {tokens rest : List Token}
    (passed : Passed interpolate before tokens after rest) (regular : Regular tokens) :
    Reached before tokens after rest := by
  induction passed with
  | refl blocks tokens => exact ⟨regular, rfl, by omega⟩
  | @cons before between after tokens rest crossed parsed _ ih =>
      have other : (headToken tokens).kind ≠ .endOfFile ∧ (headToken tokens).kind ≠ .invalid := by
        constructor <;> intro kind <;> rw [kind] at crossed <;> cases crossed
      cases tokens with
      | nil => exact absurd rfl other.1
      | cons token later =>
          rw [headToken_cons] at crossed parsed other
          rw [next_cons other.1] at ih
          obtain ⟨here, after⟩ := Token.regular_cons.mp regular
          have reached := ih after
          -- Only a literal holds other tokens, and one that is passed over was parsed in full.
          have valid : firstInvalid? [token] = none := by
            by_cases isString : token.kind = .string
            · obtain ⟨segments, parts, payload, found⟩ := parsed isString
              have judged := judges_literal faithful here isString payload
              rwa [found] at judged
            · exact Token.firstInvalid?_of_valid
                (Token.regular_singleton.mp here).1.scanned isString other.2
          refine ⟨reached.regular, ?_, ?_⟩
          · rw [Token.firstInvalid?_cons, valid, Option.none_or, reached.invalid]
          · have here := blocks_of_crosses crossed later
            have further := reached.blocks
            omega

/-- What stops parsing fits, if no block is open at the end of file. -/
theorem Stuck.fits {blocks : Nat} {tokens : List Token} {defect : Defect}
    (stuck : Stuck interpolate blocks tokens defect) (regular : Regular tokens)
    (ended : Ended tokens) (closed : (headToken tokens).kind = .endOfFile → blocks = 0) :
    defect.Fits (firstInvalid? tokens) := by
  obtain ⟨token, rest, rfl⟩ : ∃ token rest, tokens = token :: rest := by
    obtain ⟨before, last, rfl, -⟩ := ended
    exact List.exists_cons_of_ne_nil (by simp)
  cases stuck with
  | unexpected expectation isInner => exact fits_ofToken isInner token rest
  | unclosed delimiter opened isEnd => exact trivial
  | endOfBlock isEnd inside => exact absurd (closed isEnd) (Nat.ne_of_gt inside)
  | interpolation isString payload failed =>
      have judged := judges_literal faithful (Token.regular_cons.mp regular).1 isString payload
      rw [failed] at judged
      rw [Token.firstInvalid?_cons]
      exact Defect.Fits.or judged _

/-- What is read up to the end of file is judged rightly. -/
theorem Explained.judges {α : Type} {tokens : List Token}
    {outcome : Except Defect (α × List Token)}
    (explained : Explained interpolate .part tokens outcome)
    (regular : Regular tokens) (ended : Ended tokens)
    (balanced : Layout.starts tokens = Layout.ends tokens)
    (complete : Returns outcome fun result => (headToken result.2).kind = .endOfFile) :
    Judges (firstInvalid? tokens) outcome := by
  cases outcome with
  | ok result =>
      have passed : Passed interpolate 0 tokens 0 result.2 := Crossed.passed explained
      have reached := passed.reached faithful regular
      obtain ⟨last, rest, isEnd⟩ := (passed.ended ended).eq_singleton (complete result rfl)
      rw [rest] at reached
      rw [Judges, reached.invalid]
      exact Token.firstInvalid?_of_valid (Token.regular_singleton.mp reached.regular).1.scanned
        (by rw [isEnd]; decide) (by rw [isEnd]; decide)
  | error defect =>
      obtain ⟨inside, later, passed, stuck⟩ := explained
      have passed : Passed interpolate 0 tokens inside later := passed
      have reached := passed.reached faithful regular
      have ended := passed.ended ended
      rw [Judges, reached.invalid]
      -- Blocks are balanced in the whole list, so none is open where only the end of file is left.
      refine stuck.fits faithful reached.regular ended fun isEnd => ?_
      obtain ⟨last, rest, isLast⟩ := ended.eq_singleton isEnd
      have blocks := reached.blocks
      have none : Layout.starts later = 0 ∧ Layout.ends later = 0 := by
        simp [rest, Layout.starts, Layout.ends, isLast]
      omega

/-- A rule that reads the layout of tokens up to the end of file judges them rightly. -/
theorem judges_layout {α : Type} {tokens output : List Token} (raw : Raw tokens)
    (regular : Regular tokens) (found : Layout.normalize tokens = .ok output)
    {outcome : Except Defect (α × List Token)}
    (explained : Explained interpolate .part output outcome)
    (complete : Returns outcome fun result => (headToken result.2).kind = .endOfFile) :
    Judges (firstInvalid? tokens) outcome := by
  obtain ⟨same, balanced⟩ := Token.firstInvalid?_normalize raw regular found
  obtain ⟨regular, ended, -⟩ := Token.leaves_normalize raw regular found
  rw [← same]
  exact Explained.judges faithful explained regular ended balanced complete

end Faithful

/-- The end of file stays in front when it is read. -/
theorem returns_expectEnd {α : Type} (parser : Parser α) (expectation : Expectation)
    (tokens : List Token) :
    Returns ((do
      let result ← parser
      let _ ← expect .endOfFile expectation
      return result : Parser α) tokens) fun result => (headToken result.2).kind = .endOfFile := by
  have first : Returns (parser tokens) fun _ => True := fun _ _ => trivial
  refine first.bind fun result _ => .expect fun isEnd => .ok ?_
  rwa [next, if_pos isEnd]

theorem faithful_parseInterpolation (depth : Nat) : Faithful (parseInterpolation depth) := by
  induction depth with
  | zero =>
      rintro inner ⟨before, last, rfl, -⟩ regular
      obtain ⟨token, rest, split⟩ := List.exists_cons_of_ne_nil
        (List.append_ne_nil_of_right_ne_nil before (List.cons_ne_nil last []))
      rw [split]
      exact fits_ofToken rfl token rest
  | succ depth ih =>
      intro inner raw regular
      rw [parseInterpolation]
      cases found : Layout.normalize inner with
      | error fault => exact trivial
      | ok output =>
          exact (judges_layout ih raw regular found (explained_parseInterpolated _ output)
            (returns_expectEnd _ _ _)).map _

theorem judges_parse {tokens output : List Token} (raw : Raw tokens) (regular : Regular tokens)
    (found : Layout.normalize tokens = .ok output) :
    Judges (firstInvalid? tokens) (parse output) :=
  (judges_layout (faithful_parseInterpolation _) raw regular found
    (explained_parseProgram _ output) (returns_expectEnd _ _ _)).map _

/-! ## Defects of any tokens -/

theorem Defect.Reported.syntactic {defect : Defect} (reported : defect.Reported)
    (source : String) :
    (defect.fault source).kind = .lexical ∨ (defect.fault source).kind = .layout ∨
      ∃ expected found, (defect.fault source).kind = .parse expected found := by
  obtain ⟨flaw, recorded⟩ := defect
  cases flaw with
  | layout fault =>
      obtain ⟨wrong, location, rfl⟩ := reported.layout fault rfl
      exact .inr (.inl rfl)
  | invalid => exact .inl (Fault.kind_withSource ..)
  | unexpected | unclosed => exact .inr (.inr ⟨_, _, Fault.kind_withSource ..⟩)

/-- All tokens of a program but the end of file are consumed. -/
theorem runRule_of_parse {before : List Token} {last : Token}
    (inner : ∀ token ∈ before, token.kind ≠ .endOfFile) (isEnd : last.kind = .endOfFile)
    {program : Program} (parsed : parse (before ++ [last]) = .ok program) :
    runRule (parseInterpolation (Token.depthOfTokens (before ++ [last]))) parseProgram
      (before ++ [last]) = .ok (program.statements, [last]) := by
  rw [parse_eq] at parsed
  obtain ⟨⟨statements, rest⟩, found, same⟩ := Layout.exists_of_bind_eq_ok parsed
  obtain rfl := Except.ok.inj same
  have explained := explained_parseProgram (parseInterpolation
    (Token.depthOfTokens (before ++ [last]))) (before ++ [last])
  rw [found] at explained
  have passed : Passed _ 0 (before ++ [last]) 0 rest := Crossed.passed explained
  have atEnd := returns_expectEnd _ _ _ _ found
  obtain ⟨last', rfl, -⟩ := (passed.ended ⟨before, last, rfl, isEnd, inner⟩).eq_singleton atEnd
  obtain ⟨used, split⟩ := passed.suffix
  obtain ⟨-, same⟩ := List.append_inj' split rfl
  rw [found, same]

end Tree

/-! ## Rejected texts -/

/-- A rejection that fits tokens with this first invalid one. -/
def Rejection.Fits (invalid? : Option Token) : Rejection → Prop
  | .overflow _ => False
  | .layout fault => ∃ defect location, fault = Layout.Defect.fault defect location
  | .defect wrong => wrong.Fits invalid? ∧ wrong.Reported

theorem Tree.Expectation.message_of_isInner (expectation : Expectation)
    (isInner : expectation.isInner) :
    expectation.message ≠ "Expected end of block" ∧
      expectation.message ≠ "Expected end of file" := by
  cases expectation with
  | endOfBlock | endOfFile => cases isInner
  | _ => decide

namespace Rejection.Fits

variable {invalid? : Option Token} {rejection : Rejection} {source : String} {fault : Fault}

/-- A fault of a token is one of the first invalid token. -/
theorem of_lexical (fits : rejection.Fits invalid?) (raised : rejection.fault source = .ok fault)
    (lexical : fault.kind = .lexical) : ∃ token, invalid? = some token ∧
      fault.message = token.payload.shown ∧ fault.location = some token.location := by
  cases rejection with
  | overflow => exact fits.elim
  | layout wrong =>
      obtain ⟨defect, location, rfl⟩ := fits
      obtain rfl := Except.ok.inj raised
      rw [Fault.kind_withSource] at lexical
      cases lexical
  | defect wrong =>
      obtain rfl := Except.ok.inj raised
      rw [Fault.kind_withSource] at lexical
      rw [Fault.message_withSource, Fault.location_withSource]
      obtain ⟨flaw, recorded⟩ := wrong
      cases flaw with
      | layout fault =>
          obtain ⟨defect, location, rfl⟩ := fits.2.layout fault rfl
          cases lexical
      | invalid token =>
          exact ⟨token, fits.1, Fault.message_withSource .., Fault.location_withSource ..⟩
      | unexpected | unclosed =>
          rw [Tree.Defect.fault, Fault.kind_withSource] at lexical
          cases lexical

/-- No fault is about the end of a block or of the file. -/
theorem message_ne (fits : rejection.Fits invalid?) (raised : rejection.fault source = .ok fault)
    (complains : ∀ token, invalid? = some token → IsComplaint token.payload.shown) :
    fault.message ≠ "Expected end of block" ∧ fault.message ≠ "Expected end of file" := by
  have other {message : String} (complains : IsComplaint message) :
      message ≠ "Expected end of block" ∧ message ≠ "Expected end of file" := by
    constructor <;> rintro rfl <;> exact complains (by decide)
  cases rejection with
  | overflow => exact fits.elim
  | layout wrong =>
      obtain ⟨defect, location, rfl⟩ := fits
      obtain rfl := Except.ok.inj raised
      rw [Fault.message_withSource]
      exact other defect.isComplaint_message
  | defect wrong =>
      obtain rfl := Except.ok.inj raised
      rw [Fault.message_withSource]
      obtain ⟨flaw, recorded⟩ := wrong
      cases flaw with
      | layout fault =>
          obtain ⟨defect, location, rfl⟩ := fits.2.layout fault rfl
          exact other defect.isComplaint_message
      | invalid token =>
          rw [Tree.Defect.fault, Fault.message_withSource]
          exact other (complains token fits.1)
      | unexpected expectation token =>
          rw [Tree.Defect.fault, Fault.message_withSource]
          exact expectation.message_of_isInner fits.1
      | unclosed delimiter opened token =>
          have complaint : IsComplaint ("Unclosed delimiter '" ++ delimiter.opening ++ "'") := by
            cases delimiter <;> decide
          rw [Tree.Defect.fault, Fault.message_withSource]
          exact other complaint

end Rejection.Fits

namespace Source

open Token (firstInvalid?)

variable {source : String} {file : Option String}

/-- A text is accepted only if it has no invalid tokens, and it is rejected for a reason that fits
them. -/
theorem judges_program {tokens : List Token} (scans : Token.scan source file = .ok tokens) :
    (∀ program, Source.program source file = .ok program → firstInvalid? tokens = none) ∧
      ∀ rejection, Source.program source file = .error rejection →
        rejection.Fits (firstInvalid? tokens) := by
  have regular := Token.regular_scanFrom (Location.Counted.start file) scans
  have raw := Token.raw_scanFrom scans
  rw [program_eq scans, programOf]
  have ordinary := Layout.ordinary_normalize tokens
  cases found : Layout.normalize tokens with
  | error fault =>
      rw [found] at ordinary
      obtain ⟨defect, place, -, rfl⟩ := ordinary
      refine ⟨by rintro _ ⟨⟩, ?_⟩
      rintro _ ⟨⟩
      exact ⟨defect, place, rfl⟩
  | ok output =>
      have judged := Tree.judges_parse raw regular found
      have reports := Tree.reports_parse output
      dsimp only
      cases parsed : Tree.parse output with
      | ok program =>
          rw [parsed] at judged
          exact ⟨fun _ _ => judged, by rintro _ ⟨⟩⟩
      | error defect =>
          rw [parsed] at judged
          refine ⟨by rintro _ ⟨⟩, ?_⟩
          rintro _ ⟨⟩
          exact ⟨judged, reports defect parsed⟩

theorem exists_scan_of_accepted {program : Program}
    (accepted : Source.program source file = .ok program) :
    ∃ tokens, Token.scan source file = .ok tokens := by
  cases scans : Token.scan source file with
  | ok tokens => exact ⟨tokens, rfl⟩
  | error refused =>
      rw [Source.program, Source.tokens, scans] at accepted
      cases accepted

theorem exists_scan_of_fault {rejection : Rejection}
    (rejected : Source.program source file = .error rejection) {fault : Fault}
    (raised : rejection.fault source = .ok fault) :
    ∃ tokens, Token.scan source file = .ok tokens := by
  cases scans : Token.scan source file with
  | ok tokens => exact ⟨tokens, rfl⟩
  | error refused =>
      rw [Source.program, Source.tokens, scans] at rejected
      cases rejected
      cases raised

theorem complains_firstInvalid? {tokens : List Token} {token : Token}
    (scans : Token.scan source file = .ok tokens) (first : firstInvalid? tokens = some token) :
    ∃ message, token.payload = .text message ∧ IsComplaint message := by
  have invalid : token.kind = .invalid := by simpa using List.find?_some first
  exact Token.complains_scanFrom (Location.Counted.start file) scans token
    (List.mem_of_find?_eq_some first) invalid

/-- The fault of a text. -/
def fault? (source : String) (file : Option String) : Option Fault :=
  match Source.program source file with
  | .ok _ => none
  | .error rejection => (rejection.fault source).toOption

theorem exists_rejection {fault : Fault} (found : fault? source file = some fault) :
    ∃ rejection, Source.program source file = .error rejection ∧
      rejection.fault source = .ok fault := by
  unfold fault? at found
  split at found
  · cases found
  · next rejection rejected => exact ⟨rejection, rejected, Layout.eq_ok_of_toOption found⟩

/-- No text with an invalid token is accepted, and if one is reported, then it is the first one, at
any depth of interpolation. -/
theorem program_firstInvalid (source : String) (file : Option String) :
    (∀ program, Source.program source file = .ok program → ∃ tokens,
      Token.scan source file = .ok tokens ∧
        ∀ token ∈ nestedAll tokens, token.kind ≠ .invalid) ∧
    ∀ rejection fault, Source.program source file = .error rejection →
      rejection.fault source = .ok fault → fault.kind = .lexical → ∃ tokens token,
        Token.scan source file = .ok tokens ∧
          (nestedAll tokens).find? (·.kind == .invalid) = some token ∧
          token.payload = .text fault.message ∧ fault.location = some token.location := by
  refine ⟨fun program accepted => ?_, fun rejection fault rejected raised lexical => ?_⟩
  · obtain ⟨tokens, scans⟩ := exists_scan_of_accepted accepted
    exact ⟨tokens, scans, Token.firstInvalid?_eq_none_iff.mp
      ((judges_program scans).1 program accepted)⟩
  · obtain ⟨tokens, scans⟩ := exists_scan_of_fault rejected raised
    obtain ⟨token, first, message, location⟩ :=
      ((judges_program scans).2 rejection rejected).of_lexical raised lexical
    obtain ⟨text, payload, -⟩ := complains_firstInvalid? scans first
    refine ⟨tokens, token, scans, first, ?_, location⟩
    rw [payload, message, payload]
    rfl

/-- Of the characters that form no token the first one is reported, which stands in an interpolation
within another one. -/
theorem program_firstInvalid_nested :
    let accepted := "f \x60\x7ba\x7d\x60"
    let source := "f \x60\x7ba \x60\x7bb $\x7d\x60 $\x7d\x60 $"
    (∃ program tokens, Source.program accepted none = .ok program ∧
      Token.scan accepted none = .ok tokens ∧
      ∀ token ∈ nestedAll tokens, token.kind ≠ .invalid) ∧
    ∃ rejection fault tokens token, Source.program source none = .error rejection ∧
      rejection.fault source = .ok fault ∧ fault.kind = .lexical ∧
      fault.message = "Unexpected character: '$'" ∧ fault.location.map (·.offset) = some 10 ∧
      Token.scan source none = .ok tokens ∧
      (nestedAll tokens).find? (·.kind == .invalid) = some token ∧
      token.payload = .text fault.message ∧ fault.location = some token.location := by
  intro accepted source
  constructor
  · have isOk : (Source.program accepted none).isOk := by decide +kernel
    cases parsed : Source.program accepted none with
    | ok program =>
        obtain ⟨tokens, scans, valid⟩ := (program_firstInvalid accepted none).1 program parsed
        exact ⟨program, tokens, rfl, scans, valid⟩
    | error rejection =>
        rw [parsed] at isOk
        cases isOk
  · have found : (fault? source none).map (fun fault =>
        (fault.kind, fault.message, fault.location.map (·.offset))) =
          some (.lexical, "Unexpected character: '$'", some 10) := by decide +kernel
    obtain ⟨fault, here, same⟩ := Option.map_eq_some_iff.mp found
    obtain ⟨rejection, rejected, raised⟩ := exists_rejection here
    obtain ⟨lexical, rest⟩ := Prod.mk.inj same
    obtain ⟨message, place⟩ := Prod.mk.inj rest
    obtain ⟨tokens, token, reported⟩ :=
      (program_firstInvalid source none).2 rejection fault rejected raised lexical
    exact ⟨rejection, fault, tokens, token, rejected, raised, lexical, message, place, reported⟩

/-- A loop over a block of one statement. -/
def loopTokens : List Token :=
  [Layout.tokenAt 1 .whileWord, Layout.tokenAt 7 .identifier, Layout.tokenAt 8 .colon,
    Layout.tokenAt 3 .blockStart, Layout.tokenAt 3 .identifier, Layout.tokenAt 1 .blockEnd]

/-- Parsing ends by itself, with a program for which all tokens but the end of file are consumed, or
with a fault of syntax. No text is rejected because the end of a block or of the file is missed. -/
theorem parse_ends :
    (∀ before last, last.kind = .endOfFile → (∀ token ∈ before, token.kind ≠ .endOfFile) →
      (∀ bottom : Tree.Bottom, bottom.parse (before ++ [last]) = Tree.parse (before ++ [last])) ∧
      ((∃ program, Tree.parse (before ++ [last]) = .ok program ∧
        Tree.runRule (Tree.parseInterpolation (Token.depthOfTokens (before ++ [last])))
          Tree.parseProgram (before ++ [last]) = .ok (program.statements, [last])) ∨
      ∃ defect, Tree.parse (before ++ [last]) = .error defect ∧ ∀ source,
        (defect.fault source).kind = .lexical ∨ (defect.fault source).kind = .layout ∨
          ∃ expected found, (defect.fault source).kind = .parse expected found)) ∧
    ∀ source file rejection fault, Source.program source file = .error rejection →
      rejection.fault source = .ok fault →
        fault.message ≠ "Expected end of block" ∧ fault.message ≠ "Expected end of file" := by
  refine ⟨fun before last isEnd inner => ⟨fun bottom => Tree.parse_settled bottom _, ?_⟩,
    fun source file rejection fault rejected raised => ?_⟩
  · cases parsed : Tree.parse (before ++ [last]) with
    | ok program => exact .inl ⟨program, rfl, Tree.runRule_of_parse inner isEnd parsed⟩
    | error defect =>
        exact .inr ⟨defect, rfl, (Tree.reports_parse _ defect parsed).syntactic⟩
  · obtain ⟨tokens, scans⟩ := exists_scan_of_fault rejected raised
    refine ((judges_program scans).2 rejection rejected).message_ne raised fun token first => ?_
    obtain ⟨message, payload, complains⟩ := complains_firstInvalid? scans first
    rwa [payload]

/-- A loop over a block, and an open bracket in a block. -/
theorem parse_ends_loop :
    (∃ program, Tree.parse (loopTokens ++ [Layout.tokenAt 1 .endOfFile]) = .ok program ∧
      Tree.runRule (Tree.parseInterpolation 0) Tree.parseProgram
        (loopTokens ++ [Layout.tokenAt 1 .endOfFile]) =
          .ok (program.statements, [Layout.tokenAt 1 .endOfFile])) ∧
    ∃ fault, fault? "while a:\n  f (b" none = some fault ∧
      fault.message = "Expected ')' to close '('" ∧ fault.message ≠ "Expected end of block" := by
  constructor
  · obtain ⟨-, accepted | ⟨defect, failed, -⟩⟩ :=
      parse_ends.1 loopTokens (Layout.tokenAt 1 .endOfFile) rfl (by decide)
    · exact accepted
    · have isOk : (Tree.parse (loopTokens ++ [Layout.tokenAt 1 .endOfFile])).isOk := by
        decide +kernel
      rw [failed] at isOk
      cases isOk
  · have found : (fault? "while a:\n  f (b" none).map (·.message) =
        some "Expected ')' to close '('" := by decide +kernel
    obtain ⟨fault, here, message⟩ := Option.map_eq_some_iff.mp found
    obtain ⟨rejection, rejected, raised⟩ := exists_rejection here
    exact ⟨fault, here, message, (parse_ends.2 _ _ rejection fault rejected raised).1⟩

end Source

end Offside
