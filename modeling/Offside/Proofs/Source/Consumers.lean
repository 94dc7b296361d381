import Offside.Command
import Offside.Document
import Offside.Proofs.Tree.Recording
import Offside.Proofs.Tree.Relocation

/-!
# What the consumers of a source text make of it

A text is parsed for an editor, for a check on the command line and for a run. They all agree on
whether it is a program, and those that report what is wrong with it point at the same place. The
name of the text's file is in the places of its program and has no influence on anything else.
-/

namespace Offside

/-- A rejection with other places. -/
def Rejection.relocate (move : Location → Location) : Rejection → Rejection
  | .overflow refused => .overflow refused
  | .layout fault => .layout (fault.relocate move)
  | .defect wrong => .defect (wrong.relocate move)

/-- A rejection of scanned tokens. -/
def Rejection.Scanned : Rejection → Prop
  | .overflow _ => False
  | .layout fault => fault.OfLayout
  | .defect wrong => wrong.Scanned

namespace Source

open Token (Complete)

/-! ## The name of the file -/

theorem scan_inFile (source : String) (file file' : Option String) :
    Token.scan source file' =
      List.map (Token.relocate (Location.inFile file')) <$> Token.scan source file :=
  Token.scanFrom_relocate (Location.steady_inFile file') none (.start file) source.toList

theorem complete_scan {source : String} {file : Option String} {tokens : List Token}
    (scans : Token.scan source file = .ok tokens) : Complete tokens :=
  Token.complete_scanFrom (.start file) scans

/-- A program with other places, or a rejection with another place. -/
def relocateResult (move : Location → Location) :
    Except Rejection Program → Except Rejection Program
  | .ok program => .ok (Node.relocateBlock move program)
  | .error rejection => .error (rejection.relocate move)

theorem exists_of_relocateResult {move : Location → Location} {result : Except Rejection Program}
    {program : Program} (moved : relocateResult move result = .ok program) :
    ∃ original, result = .ok original ∧ Node.relocateBlock move original = program := by
  cases result with
  | error => cases moved
  | ok original => exact ⟨original, rfl, Except.ok.inj moved⟩

/-- A program, or a rejection of scanned tokens. -/
def ScannedResult : Except Rejection Program → Prop
  | .ok _ => True
  | .error rejection => rejection.Scanned

/-- The program of scanned tokens. -/
def programOf (tokens : List Token) : Except Rejection Program :=
  match Layout.normalize tokens with
  | .error fault => .error (.layout fault)
  | .ok tokens => (Tree.parse tokens).mapError .defect

theorem program_eq {source : String} {file : Option String} {tokens : List Token}
    (scans : Token.scan source file = .ok tokens) : program source file = programOf tokens := by
  rw [program, Source.tokens, scans, programOf]
  dsimp only
  cases Layout.normalize tokens with
  | error fault => rfl
  | ok tokens =>
      change _ = (Tree.parse tokens).mapError _
      cases parsed : Tree.parse tokens <;> simp [parsed, Except.mapError, bind, Except.bind]

/-- Tokens that move and keep their columns have the same program, further on. -/
theorem programOf_relocate {move : Location → Location}
    (column : ∀ location, (move location).column = location.column) {tokens : List Token}
    (complete : Complete tokens) :
    programOf (tokens.map (Token.relocate move)) = relocateResult move (programOf tokens) ∧
      ScannedResult (programOf tokens) := by
  have complete' := Layout.complete_normalize complete
  rw [programOf, programOf, Layout.normalize_relocate column complete]
  generalize Layout.normalize tokens = normal at complete'
  cases normal with
  | error fault => exact ⟨rfl, complete'⟩
  | ok tokens =>
      have outcomes := Tree.outcomes_parse column complete'
      change (Tree.parse (tokens.map (Token.relocate move))).mapError _ =
        relocateResult _ ((Tree.parse tokens).mapError _) ∧
          ScannedResult ((Tree.parse tokens).mapError _)
      generalize Tree.parse tokens = parsed at outcomes
      generalize Tree.parse (tokens.map _) = parsed' at outcomes
      cases parsed with
      | error wrong =>
          cases parsed' with
          | error wrong' =>
              obtain ⟨rfl, scanned⟩ := outcomes
              exact ⟨rfl, scanned⟩
          | ok program => exact outcomes.elim
      | ok program =>
          cases parsed' with
          | error wrong' => exact outcomes.elim
          | ok program' =>
              obtain rfl : program' = _ := outcomes
              exact ⟨rfl, trivial⟩

/-- A text has the same program in every file, but for the name of the file. -/
theorem program_inFile {source : String} {file : Option String} {tokens : List Token}
    (scans : Token.scan source file = .ok tokens) (file' : Option String) :
    program source file' = relocateResult (Location.inFile file') (program source file) ∧
      ScannedResult (program source file) := by
  have scans' := scan_inFile source file file'
  rw [scans] at scans'
  rw [program_eq scans, program_eq scans']
  exact programOf_relocate (Location.steady_inFile file').column (complete_scan scans)

end Source

/-! ## The place of what is wrong -/

namespace Tree.Defect

/-- Where a defect is. -/
def place? (defect : Defect) : Option Location :=
  match defect.flaw with
  | .layout fault => fault.location
  | .invalid token => some token.location
  | .unexpected _ token => some token.location
  | .unclosed _ _ token => some token.location

theorem Scanned.counted {defect : Defect} (scanned : defect.Scanned) :
    ∃ location, defect.place? = some location ∧ location.Counted := by
  obtain ⟨flaw, recorded⟩ := defect
  cases flaw with
  | layout fault => exact Fault.OfLayout.counted scanned
  | _ => exact ⟨_, rfl, Token.Scanned.counted scanned⟩

theorem place?_relocate (move : Location → Location) (defect : Defect) :
    (defect.relocate move).place? = defect.place?.map move := by
  obtain ⟨flaw, recorded⟩ := defect
  cases flaw with
  | layout fault => rfl
  | _ => simp [relocate, Flaw.relocate, place?]

end Tree.Defect

theorem Fault.location_withSource (fault : Fault) (source : String) :
    (fault.withSource source).location = fault.location := by
  unfold withSource
  split <;> rfl

theorem Fault.kind_withSource (fault : Fault) (source : String) :
    (fault.withSource source).kind = fault.kind := by
  unfold withSource
  split <;> rfl

theorem Fault.message_withSource (fault : Fault) (source : String) :
    (fault.withSource source).message = fault.message := by
  unfold withSource
  split <;> rfl

/-- A fault that reports an unclosed bracket. -/
def Fault.ReportsUnclosed (fault : Fault) : Prop :=
  fault.kind ≠ .lexical ∧ ∃ delimiter : Tree.Delimiter,
    fault.message = "Unclosed delimiter '" ++ delimiter.opening ++ "'"

theorem Fault.reportsUnclosed_withSource (fault : Fault) (source : String) :
    (fault.withSource source).ReportsUnclosed ↔ fault.ReportsUnclosed := by
  rw [ReportsUnclosed, kind_withSource, message_withSource, ReportsUnclosed]

theorem Tree.Expectation.message_ne (expectation : Expectation) (delimiter : Delimiter) :
    expectation.message ≠ "Unclosed delimiter '" ++ delimiter.opening ++ "'" := by
  cases delimiter <;> cases expectation <;> decide

namespace Tree.Defect

theorem location_fault (defect : Defect) (source : String) :
    (defect.fault source).location = defect.place? := by
  obtain ⟨flaw, recorded⟩ := defect
  cases flaw with
  | layout fault => rfl
  | _ => exact Fault.location_withSource ..

end Tree.Defect

namespace Rejection

/-- Where a rejection points. -/
def place? : Rejection → Option Location
  | .overflow _ => none
  | .layout fault => fault.location
  | .defect wrong => wrong.place?

theorem Scanned.counted {rejection : Rejection} (scanned : rejection.Scanned) :
    ∃ location, rejection.place? = some location ∧ location.Counted := by
  cases rejection with
  | overflow => exact scanned.elim
  | layout fault => exact Fault.OfLayout.counted scanned
  | defect wrong => exact Tree.Defect.Scanned.counted scanned

theorem place?_relocate (move : Location → Location) (rejection : Rejection) :
    (rejection.relocate move).place? = rejection.place?.map move := by
  cases rejection with
  | overflow | layout => rfl
  | defect wrong => exact wrong.place?_relocate move

/-- The fault of a rejection stands at its place. -/
theorem Scanned.fault {rejection : Rejection} (scanned : rejection.Scanned) (source : String) :
    ∃ fault, rejection.fault source = .ok fault ∧ fault.location = rejection.place? := by
  cases rejection with
  | overflow => exact scanned.elim
  | layout fault => exact ⟨_, rfl, Fault.location_withSource ..⟩
  | defect wrong =>
      exact ⟨_, rfl, (Fault.location_withSource ..).trans (wrong.location_fault source)⟩

end Rejection

/-! ## Notices -/

namespace Document.Notice

/-- A notice on some columns of a line, from a place on. -/
structure PointsAt (notice : Notice) (location : Location) : Prop where
  startLine : notice.range.startLine = location.line - 1
  startColumn : notice.range.startColumn = location.column - 1
  endLine : notice.range.endLine = notice.range.startLine
  endColumn : notice.range.startColumn < notice.range.endColumn

theorem pointsAt_ofFault {fault : Fault} {location : Location}
    (here : fault.location = some location) (counted : location.Counted) :
    (ofFault fault).PointsAt location := by
  have line := counted.line
  have column := counted.column
  have word : 0 < wordLength (fault.sourceLine.getD "") (max 0 (location.column - 1)) :=
    Nat.lt_of_lt_of_le Nat.zero_lt_one (Nat.le_max_left ..)
  refine ⟨?_, ?_, rfl, ?_⟩ <;> simp only [ofFault, here] <;> omega

theorem pointsAt_ofDiagnostic {diagnostic : Diagnostic} {location : Location} {length : Int}
    {file : String} (here : diagnostic.primarySpan? = some (.ofLocation location length file))
    (counted : location.Counted) : (ofDiagnostic diagnostic).PointsAt location := by
  have line := counted.line
  have column := counted.column
  refine ⟨?_, ?_, ?_, ?_⟩ <;>
    simp only [ofDiagnostic, here, Range.ofSpan, Span.ofLocation, Span.ofLength]
  · omega
  · omega
  · split <;> omega

end Document.Notice

/-- The diagnostic of a defect shows its place. -/
theorem Diagnostic.primarySpan?_ofRemark {defect : Tree.Defect} {remark : Tree.Remark}
    (found : defect.flaw.remark? = some remark) {location : Location}
    (here : defect.place? = some location) (file : String) :
    ∃ length, (ofRemark file remark).primarySpan? = some (.ofLocation location length file) := by
  obtain ⟨flaw, recorded⟩ := defect
  cases flaw with
  | layout => cases found
  | _ =>
      obtain rfl := Option.some.inj found
      obtain rfl := Option.some.inj here
      exact ⟨_, rfl⟩

/-- The code of the diagnostic of a defect says what kind of defect it is. -/
theorem Diagnostic.code_ofRemark {defect : Tree.Defect} {remark : Tree.Remark}
    (found : defect.flaw.remark? = some remark) (file source : String) :
    ((ofRemark file remark).code = "E0208" ↔ (defect.fault source).kind = .lexical) ∧
      ((ofRemark file remark).code = "E0202" ↔ (defect.fault source).ReportsUnclosed) := by
  obtain ⟨flaw, recorded⟩ := defect
  cases flaw with
  | layout => cases found
  | invalid token =>
      obtain rfl := Option.some.inj found
      rw [Tree.Defect.fault, Fault.kind_withSource, Fault.reportsUnclosed_withSource]
      change ("E0208" = "E0208" ↔ _) ∧ ("E0208" = "E0202" ↔ _)
      simp [Fault.ReportsUnclosed, Fault.atLocation]
  | unexpected expectation token =>
      obtain rfl := Option.some.inj found
      rw [Tree.Defect.fault, Fault.kind_withSource, Fault.reportsUnclosed_withSource]
      change ("E0201" = "E0208" ↔ _) ∧ ("E0201" = "E0202" ↔ _)
      simp [Fault.ReportsUnclosed, Fault.atLocation, expectation.message_ne]
  | unclosed delimiter opened token =>
      obtain rfl := Option.some.inj found
      rw [Tree.Defect.fault, Fault.kind_withSource, Fault.reportsUnclosed_withSource]
      change ("E0202" = "E0208" ↔ _) ∧ ("E0202" = "E0202" ↔ _)
      exact ⟨by simp [Fault.atLocation], fun _ => ⟨nofun, delimiter, rfl⟩, fun _ => rfl⟩

/-- The diagnostics of a reported defect: one for its remark, if there is one. -/
theorem Tree.Defect.Reported.ofDefect {defect : Tree.Defect} (reported : defect.Reported)
    {source : String} (filled : ¬source.isEmpty) (file : String) :
    Diagnostic.ofDefect source file defect =
      (defect.flaw.remark?.map (Diagnostic.ofRemark file)).toList := by
  rw [Diagnostic.ofDefect, if_neg filled, reported.recorded, Option.toList_map]

/-- One notice is given on a text that is no program, at the place where it is wrong. -/
theorem Rejection.Scanned.notice {rejection : Rejection} (scanned : rejection.Scanned)
    (reported : ∀ wrong, rejection = .defect wrong → wrong.Reported)
    (name source : String) {location : Location} (here : rejection.place? = some location)
    (counted : location.Counted) :
    ∃ notice, Document.noticesOf name source rejection = .ok [notice] ∧
      notice.PointsAt location := by
  have ofFault (fault : Fault) (same : fault.location = some location) :
      (Document.Notice.ofFault (fault.withSource source)).PointsAt location :=
    Document.Notice.pointsAt_ofFault ((fault.location_withSource source).trans same) counted
  cases rejection with
  | overflow => exact scanned.elim
  | layout fault => exact ⟨_, rfl, ofFault fault here⟩
  | defect wrong =>
      rw [Document.noticesOf]
      by_cases blank : source.isEmpty
      · rw [Diagnostic.ofDefect, if_pos blank]
        exact ⟨_, rfl, ofFault _ ((wrong.location_fault source).trans here)⟩
      · rw [(reported wrong rfl).ofDefect blank]
        cases found : wrong.flaw.remark? with
        | none => exact ⟨_, rfl, ofFault _ ((wrong.location_fault source).trans here)⟩
        | some remark =>
            obtain ⟨length, span⟩ := Diagnostic.primarySpan?_ofRemark found here name
            exact ⟨_, rfl, Document.Notice.pointsAt_ofDiagnostic span counted⟩

/-- A rejection of scanned tokens is a fault of syntax. -/
theorem Rejection.Scanned.syntactic {rejection : Rejection} (scanned : rejection.Scanned)
    {source : String} {fault : Fault} (raised : rejection.fault source = .ok fault) :
    fault.kind = .lexical ∨ fault.kind = .layout ∨
      ∃ expected found, fault.kind = .parse expected found := by
  cases rejection with
  | overflow => exact scanned.elim
  | layout wrong =>
      obtain rfl := Except.ok.inj raised
      exact .inr (.inl ((wrong.kind_withSource source).trans (Fault.OfLayout.kind scanned)))
  | defect wrong =>
      obtain rfl := Except.ok.inj raised
      rw [Fault.kind_withSource]
      obtain ⟨flaw, recorded⟩ := wrong
      cases flaw with
      | layout wrong => exact .inr (.inl (Fault.OfLayout.kind scanned))
      | invalid => exact .inl (Fault.kind_withSource ..)
      | unexpected | unclosed => exact .inr (.inr ⟨_, _, Fault.kind_withSource ..⟩)

/-- What is wrong with the tokens, and not with their layout, has one diagnostic. -/
theorem Rejection.Scanned.diagnosed {rejection : Rejection} (scanned : rejection.Scanned)
    (reported : ∀ wrong, rejection = .defect wrong → wrong.Reported)
    {source : String} {fault : Fault} (raised : rejection.fault source = .ok fault)
    (tokens : fault.kind ≠ .layout) (filled : source ≠ "") :
    ∃ defect, rejection = .defect defect ∧ ∀ file, ∃ diagnostic,
      Diagnostic.ofDefect source file defect = [diagnostic] ∧
        (diagnostic.code = "E0208" ↔ fault.kind = .lexical) ∧
        (diagnostic.code = "E0202" ↔ fault.ReportsUnclosed) := by
  cases rejection with
  | overflow => exact scanned.elim
  | layout wrong =>
      obtain rfl := Except.ok.inj raised
      exact (tokens ((wrong.kind_withSource source).trans (Fault.OfLayout.kind scanned))).elim
  | defect wrong =>
      obtain rfl := Except.ok.inj raised
      rw [Fault.kind_withSource] at tokens ⊢
      rw [Fault.reportsUnclosed_withSource]
      refine ⟨wrong, rfl, fun file => ?_⟩
      rw [(reported wrong rfl).ofDefect (by simpa using filled)]
      cases found : wrong.flaw.remark? with
      | some remark => exact ⟨_, rfl, Diagnostic.code_ofRemark found file source⟩
      | none =>
          obtain ⟨flaw, recorded⟩ := wrong
          cases flaw with
          | layout wrong => exact (tokens (Fault.OfLayout.kind scanned)).elim
          | _ => cases found

/-! ## Commands -/

namespace Command

theorem withSource_of_source {files : Files} {path : Path} {source : String}
    (read : files.source path = .ok source) (next : String → Except Break Outcome) :
    withSource files path next = next source := by
  have held : files.holds path := by
    cases bytes : files.read path with
    | ok => simp [Files.holds, bytes]
    | error problem =>
        rw [Files.source, Files.text, bytes] at read
        cases read
  simp [withSource, held, read]

/-- A text that is no program is reported, and nothing is done with it. -/
theorem withProgram_of_error {source file : String} {rejection : Rejection}
    (scanned : rejection.Scanned) (rejected : Source.program source (some file) = .error rejection)
    (next : Program → Except Break Outcome) :
    ∃ report, withProgram source file next = .ok (.rejected report) := by
  cases rejection with
  | overflow => exact scanned.elim
  | layout fault => exact ⟨_, by rw [withProgram, rejected]; rfl⟩
  | defect wrong =>
      rw [withProgram, rejected]
      simp only [diagnosticOf]
      split
      · exact ⟨_, rfl⟩
      · exact ⟨_, rfl⟩

end Command

/-! ## Agreement -/

namespace Source

/-- Checking any file with the given text ends with a code. -/
def CheckExits (source : String) (code : Nat) : Prop :=
  ∀ (files : Files) (path : Path), files.source path = .ok source →
    ∀ fuel events verbose, ∃ outcome,
      Command.outcome files fuel events verbose (.check path) = .ok outcome ∧ outcome.exit = code

/-- All take a text for a program, and for the same one. -/
structure Accepted (source : String) (program : Program) : Prop where
  parsed : Source.program source none = .ok program
  /-- An editor has nothing to say. -/
  shown : ∀ name, Document.check name source =
    .ok ([], some (Node.relocateBlock (Location.inFile (some name)) program))
  checked : CheckExits source 0

/-- All reject a text for the same reason. -/
structure Rejected (source : String) (rejection : Rejection) (fault : Fault) : Prop where
  parsed : Source.program source none = .error rejection
  raised : rejection.fault source = .ok fault
  syntactic : fault.kind = .lexical ∨ fault.kind = .layout ∨
    ∃ expected found, fault.kind = .parse expected found
  /-- An editor underlines the place of the fault. -/
  shown : ∃ location, fault.location = some location ∧ ∀ name, ∃ notice : Document.Notice,
    Document.check name source = .ok ([notice], none) ∧ notice.PointsAt location
  checked : CheckExits source 1
  /-- Nothing is run. -/
  unrun : ∀ (files : Files) (path : Path), files.source path = .ok source →
    ∀ choice settings, Command.settings files choice = .ok settings →
      ∀ showValue fuel events verbose, ∃ outcome,
        Command.outcome files fuel events verbose (.run path choice showValue) = .ok outcome ∧
          outcome.exit = 1 ∧ outcome.output = ""
  /-- What is wrong with a token leaves one diagnostic, with a code for its kind. -/
  diagnosed : fault.kind ≠ .layout → source ≠ "" →
    ∃ defect, rejection = .defect defect ∧ ∀ file, ∃ diagnostic,
      Diagnostic.ofDefect source file defect = [diagnostic] ∧
        (diagnostic.code = "E0208" ↔ fault.kind = .lexical) ∧
        (diagnostic.code = "E0202" ↔ fault.ReportsUnclosed)

section Agreement

variable {source : String} (scans : (Token.scan source none).isOk)
include scans

/-- The program of a text in any file, from the one of the text alone. -/
theorem program_scanned (file : Option String) :
    program source file = relocateResult (Location.inFile file) (program source none) ∧
      ScannedResult (program source file) := by
  cases scanned : Token.scan source none with
  | error refused =>
      rw [scanned] at scans
      cases scans
  | ok tokens =>
      have scanned' := scan_inFile source none file
      rw [scanned] at scanned'
      exact ⟨(program_inFile scanned file).1, (program_inFile scanned' file).2⟩

theorem accepted_of_program {parsed : Program} (holds : program source none = .ok parsed) :
    Accepted source parsed where
  parsed := holds
  shown name := by
    rw [Document.check, (program_scanned scans _).1, holds]
    rfl
  checked files path read fuel events verbose := by
    rw [Command.outcome, Command.withSource_of_source read, Command.withProgram,
      (program_scanned scans _).1, holds]
    exact ⟨_, rfl, rfl⟩

theorem rejected_of_program {rejection : Rejection}
    (holds : program source none = .error rejection) :
    ∃ fault, Rejected source rejection fault := by
  have moved (file : Option String) :
      program source file = .error (rejection.relocate (Location.inFile file)) := by
    rw [(program_scanned scans file).1, holds]
    rfl
  have scanned (file : Option String) {found : Rejection}
      (same : program source file = .error found) : found.Scanned := by
    have result := (program_scanned scans file).2
    rwa [same] at result
  have reported (file : String) (next : Program → Except Break Outcome) :
      ∃ report, Command.withProgram source file next = .ok (.rejected report) :=
    Command.withProgram_of_error (scanned file (moved file)) (moved file) next
  have scannedHere := scanned none holds
  obtain ⟨fault, raised, same⟩ := scannedHere.fault source
  obtain ⟨location, here, counted⟩ := scannedHere.counted
  refine ⟨fault, holds, raised, scannedHere.syntactic raised,
    ⟨location, same.trans here, fun name => ?shown⟩, ?checked, ?unrun,
    scannedHere.diagnosed (fun _ same => reported_of_rejected (same ▸ holds)) raised⟩
  case shown =>
    have there : (rejection.relocate (Location.inFile (some name))).place? =
        some (Location.inFile (some name) location) := by
      rw [rejection.place?_relocate, here, Option.map_some]
    obtain ⟨notice, given, points⟩ :=
      (scanned _ (moved (some name))).notice
        (fun _ same => reported_of_rejected (same ▸ moved (some name))) name source there
        ⟨counted.line, counted.column⟩
    refine ⟨notice, ?_, ⟨points.startLine, points.startColumn, points.endLine, points.endColumn⟩⟩
    rw [Document.check, moved]
    dsimp only
    rw [given]
    rfl
  case checked =>
    intro files path read fuel events verbose
    rw [Command.outcome, Command.withSource_of_source read]
    obtain ⟨report, same⟩ := reported path.text _
    exact ⟨_, same, rfl⟩
  case unrun =>
    intro files path read choice settings chosen showValue fuel events verbose
    rw [Command.outcome, Command.withSource_of_source read, Command.withSettings, chosen]
    obtain ⟨report, same⟩ := reported path.text _
    exact ⟨_, same, rfl, rfl⟩

end Agreement

/-- Every text whose integer literals are in bounds is a program for all or for none, and if for
none, then all tell of the same fault. -/
theorem consumers_agree {source : String} (scans : (Token.scan source none).isOk) :
    Xor (∃ parsed, Accepted source parsed)
      (∃ rejection fault, Rejected source rejection fault) := by
  cases holds : program source none with
  | ok parsed =>
      refine .inl ⟨⟨parsed, accepted_of_program scans holds⟩, ?_⟩
      rintro ⟨rejection, fault, rejected⟩
      cases holds.symm.trans rejected.parsed
  | error rejection =>
      obtain ⟨fault, rejected⟩ := rejected_of_program scans holds
      refine .inr ⟨⟨rejection, fault, rejected⟩, ?_⟩
      rintro ⟨parsed, accepted⟩
      cases holds.symm.trans accepted.parsed

/-- An interpolation with an unclosed bracket, alone in a file: nothing of it is run. -/
theorem unclosed_unrun :
    let source := "x := 1\nshow `\x7b(x\x7d`\n"
    let path : Path := ⟨"/", ["main.zeal"]⟩
    let files : Files :=
      ⟨⟨"/", []⟩, fun asked => if asked = path then .ok source.toUTF8 else .error .missing⟩
    (Token.scan source none).isOk ∧ ∃ outcome,
      Command.outcome files 0 [] false (.run path ⟨none, ⟨none, none, none⟩⟩ false) = .ok outcome ∧
        outcome.exit = 1 ∧ outcome.output = "" := by
  intro source path files
  have scans : (Token.scan source none).isOk := by decide +kernel
  have wrong : (program source none).isOk = false := by decide +kernel
  have read : files.source path = .ok source := by
    have same : (files.source path).toOption = some source := by decide +kernel
    cases found : files.source path with
    | error reason =>
        rw [found] at same
        cases same
    | ok text =>
        rw [found] at same
        exact congrArg _ (Option.some.inj same)
  have root : (Path.ofText Settings.fileName).root ≠ path.root := by decide +kernel
  have unset : files.read (.ofText Settings.fileName) = .error .missing := by
    dsimp only [files]
    exact if_neg fun same => root (congrArg Path.root same)
  have chosen : Command.settings files ⟨none, ⟨none, none, none⟩⟩ =
      .ok (Settings.default.choose ⟨none, none, none⟩) := by
    simp only [Command.settings, Settings.usual, unset]
    rfl
  refine ⟨scans, ?_⟩
  rcases consumers_agree scans with ⟨⟨parsed, accepted⟩, -⟩ | ⟨⟨rejection, fault, rejected⟩, -⟩
  · rw [accepted.parsed] at wrong
    cases wrong
  · exact rejected.unrun files path read _ _ chosen false 0 [] false

end Source

end Offside
