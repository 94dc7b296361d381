import Offside.Proofs.Evaluation.Provenance
import Offside.Proofs.Interpreter.Quoted
import Offside.Session.Command

/-!
# Lines that a session quotes

A session that shows a fault quotes a line of the text that it is reading at that moment: of the
input, of the code after a command, or of a file. The place of the fault need not be in that text. A
function that an earlier text defined may fail, and then the line that is quoted has the right
number but stands in the wrong text.
-/

namespace Offside

namespace Session

/-! ## Texts -/

/-- A source text with the name of its file. -/
structure Passage where
  source : String
  file : String
  deriving DecidableEq

namespace Passage

/-- The program of a text, if it is one. -/
def program (text : Passage) : Except Rejection Program :=
  Source.program text.source (some text.file)

/-- The places of the tokens of a text, those in interpolated expressions included. -/
def places (text : Passage) : List Location :=
  match Token.scan text.source (some text.file) with
  | .ok tokens => (Token.nestedAll tokens).map Token.location
  | .error _ => []

/-- A function is written in a text. -/
def Writes (text : Passage) (parameters : List Pattern) (body : Block Node) : Prop :=
  ∃ program, text.program = .ok program ∧ program.Writes parameters body

/-- A function that is written in a text has a place. -/
def FunctionAt (text : Passage) (location : Location) : Prop :=
  ∃ parameters body, text.Writes parameters body ∧ FunctionPlace parameters body location

variable {text : Passage}

theorem places_eq {tokens : List Token}
    (scans : Token.scan text.source (some text.file) = .ok tokens) :
    text.places = (Token.nestedAll tokens).map Token.location := by
  rw [places, scans]

/-- A text is read at places of its tokens. -/
theorem mem_places_of_hasPlace {program : Program} (accepted : text.program = .ok program)
    {location : Location} (place : program.HasPlace location) : location ∈ text.places := by
  obtain ⟨tokens, scans⟩ := Source.exists_scan_of_accepted accepted
  have located := Source.located_program scans
  rw [Passage.program] at accepted
  rw [accepted] at located
  rw [places_eq scans]
  exact List.mem_map.mpr (Block.All.of_hasPlace located place)

theorem FunctionAt.mem_places {location : Location} (function : text.FunctionAt location) :
    location ∈ text.places := by
  obtain ⟨parameters, body, ⟨program, accepted, writes⟩, place⟩ := function
  exact mem_places_of_hasPlace accepted (writes.hasPlace place)

/-- Functions in the body of a function are written in the same text. -/
theorem Writes.inner {parameters parameters' : List Pattern} {body body' : Block Node}
    (writes : text.Writes parameters body) (inner : body.Writes parameters' body') :
    text.Writes parameters' body' := by
  obtain ⟨program, accepted, place, within⟩ := writes
  obtain ⟨place', within'⟩ := inner
  exact ⟨program, accepted, place', within.body within'⟩

/-- The fault of a rejected text is at the place of one of its tokens and quotes its line. -/
theorem rejected {rejection : Rejection} (rejected : text.program = .error rejection)
    {fault : Fault} (found : rejection.fault text.source = .ok fault) :
    ∃ location, fault.location = some location ∧
      fault.sourceLine = Text.line? text.source location.line ∧ location ∈ text.places := by
  have raises : Source.Raises text.source (some text.file) fault := .rejected rejected found
  obtain ⟨tokens, scans⟩ := raises.exists_scan
  obtain ⟨token, member, here⟩ := raises.located scans
  obtain ⟨location, here', quoted⟩ := raises.quotes
  obtain rfl := Option.some.inj (here.symm.trans here')
  rw [places_eq scans]
  exact ⟨_, here, quoted, List.mem_map_of_mem member⟩

/-- A fault of layout alone is at the place of a token too, and it quotes nothing. -/
theorem misaligned (text : Passage) {wrong : Fault}
    (found : Source.tokens text.source (some text.file) = .error (.layout wrong)) :
    ∃ location, wrong.location = some location ∧ wrong.sourceLine = none ∧
      location ∈ text.places := by
  have rejected : Source.program text.source (some text.file) = .error (.layout wrong) := by
    rw [Source.program, found]
    rfl
  obtain ⟨tokens, scans⟩ := Source.exists_scan_of_fault rejected rfl
  have located := Source.located_program scans
  rw [rejected] at located
  obtain ⟨location, here, member⟩ := located
  obtain ⟨defect, place, rfl⟩ := (Source.judges_program scans).2 _ rejected
  rw [places_eq scans]
  exact ⟨location, here, rfl, List.mem_map.mpr member⟩

end Passage

section

variable {text : Passage}

theorem evaluate_of_rejected (session : Session) {rejection : Rejection}
    (rejected : text.program = .error rejection) :
    session.evaluate text.source text.file =
      ⟨rejectionText text.source rejection, "", [], session⟩ := by
  rw [Passage.program] at rejected
  rw [evaluate, rejected]

theorem evaluate_of_accepted (session : Session) {program : Program}
    (accepted : text.program = .ok program) :
    let after := session.interpreter.run program session.fuel
    session.evaluate text.source text.file =
      ⟨resultText text.source program after.2 after.1, after.2.world.output,
        after.2.world.calls.reverse, { session with interpreter := after.2 }⟩ := by
  rw [Passage.program] at accepted
  rw [evaluate, accepted]

theorem rejectionText_of_fault {source : String} {rejection : Rejection} {fault : Fault}
    (found : rejection.fault source = .ok fault) :
    rejectionText source rejection = .ok (some (faultText fault)) := by
  unfold rejectionText
  rw [found]

end

/-! ## Errands -/

/-- What an input has a session do with texts. -/
inductive Errand where
  /-- Run a text. -/
  | run (text : Passage)
  /-- Show the syntax tree of a text. -/
  | outline (source : String)
  /-- Show the tokens of a text. -/
  | list (source : String)
  /-- Forget what was bound. -/
  | reset
  /-- Leave things as they are. -/
  | nothing

/-- The errand of a command. -/
def commandErrand (files : Files) (argument : String) : Command → Errand
  | .load =>
    if argument.isEmpty || !files.holds (Path.ofText argument) then .nothing
    else
      match files.source (Path.ofText argument) with
      | .error _ => .nothing
      | .ok source => .run ⟨source, (Path.ofText argument).text⟩
  | .tree => if argument.isEmpty then .nothing else .outline argument
  | .tokens => if argument.isEmpty then .nothing else .list argument
  | .reset => .reset
  | .help | .quit | .variables => .nothing

/-- The errand of an input. -/
def errand (files : Files) (input : String) : Errand :=
  if Text.isBlank input.toList then .nothing
  else
    match command? input with
    | none => .run ⟨input, inputName⟩
    | some text =>
      match commands.lookup (splitCommand text).1 with
      | some command => commandErrand files (splitCommand text).2 command
      | none => .nothing

namespace Errand

/-- The text that is read. -/
def text? : Errand → Option Passage
  | .run text => some text
  | .outline source | .list source => some ⟨source, inputName⟩
  | .reset | .nothing => none

/-- The line that is quoted for a place: tokens are shown without quoting any. -/
def line? (location : Location) : Errand → Option String
  | .run text => Text.line? text.source location.line
  | .outline source => Text.line? source location.line
  | .list _ | .reset | .nothing => none

/-- The texts that were run and not forgotten, after another errand. -/
def remember (texts : List Passage) : Errand → List Passage
  | .run text => text :: texts
  | .reset => []
  | .outline _ | .list _ | .nothing => texts

/-- What comes of an errand. -/
def Done (session : Session) (turn : Turn) : Errand → Prop
  | .run text =>
    turn.session = (session.evaluate text.source text.file).session ∧
      ∃ closing, ∀ shown, (session.evaluate text.source text.file).shown = .ok (some shown) →
        turn.shown = .ok (some (shown ++ closing))
  | .outline source => turn.session = session ∧ turn.shown = treeText source
  | .list source => turn.session = session ∧ turn.shown = tokensText source
  | .reset => turn.session.interpreter = session.interpreter.reset
  | .nothing => turn.session.interpreter = session.interpreter

end Errand

theorem done_evaluate (session : Session) (source file : String) :
    Errand.Done session (session.evaluate source file) (.run ⟨source, file⟩) :=
  ⟨rfl, "", fun shown same => by rw [same, String.append_empty]⟩

theorem done_follow (session : Session) (files : Files) (argument : String) (command : Command) :
    (commandErrand files argument command).Done session
      (session.follow files argument command) := by
  cases command with
  | load =>
      rw [commandErrand, follow, load]
      by_cases empty : argument.isEmpty
      · rw [if_pos empty, if_pos (by rw [empty, Bool.true_or])]
        exact rfl
      · rw [if_neg empty, Bool.eq_false_of_not_eq_true empty, Bool.false_or]
        dsimp only
        split
        · exact rfl
        · cases files.source (Path.ofText argument) with
          | error reason => exact rfl
          | ok source =>
              refine ⟨rfl, "\n" ++ ("Loaded " ++ argument), fun shown same => ?_⟩
              dsimp only
              rw [same, ← String.append_assoc]
              rfl
  | tree | tokens =>
      rw [commandErrand, follow]
      split
      · exact rfl
      · exact ⟨rfl, rfl⟩
  | _ => exact rfl

/-- A session responds to an input by doing its errand. -/
theorem done_respond (session : Session) (files : Files) (input : String) :
    (errand files input).Done session (session.respond files input) := by
  unfold errand respond
  split
  · exact rfl
  · cases command? input with
    | none => exact session.done_evaluate input inputName
    | some text =>
        dsimp only
        cases commands.lookup (splitCommand text).1 with
        | none => exact rfl
        | some command => exact session.done_follow files _ command

/-! ## Faults -/

/-- The fault that a session shows on an errand. -/
def fault? (session : Session) : Errand → Option Fault
  | .run text =>
    match text.program with
    | .error rejection => (rejection.fault text.source).toOption
    | .ok program =>
      match (session.interpreter.run program session.fuel).1 with
      | .error (.fault wrong) => some (wrong.withSource text.source)
      | _ => none
  | .outline source => Source.fault? source (some inputName)
  | .list source =>
    match Source.tokens source (some inputName) with
    | .error (.layout wrong) => some wrong
    | _ => none
  | .reset | .nothing => none

/-- The reasons for which a session shows a fault. -/
inductive Reports (session : Session) : Errand → Fault → Prop
  | rejected {text : Passage} {rejection : Rejection} {fault : Fault} :
      text.program = .error rejection → rejection.fault text.source = .ok fault →
      Reports session (.run text) fault
  | failed {text : Passage} {program : Program} {wrong : Fault} :
      text.program = .ok program →
      (session.interpreter.run program session.fuel).1 = .error (.fault wrong) →
      Reports session (.run text) (wrong.withSource text.source)
  | outline {source : String} {rejection : Rejection} {fault : Fault} :
      (Passage.mk source inputName).program = .error rejection →
      rejection.fault source = .ok fault → Reports session (.outline source) fault
  | list {source : String} {wrong : Fault} :
      Source.tokens source (some inputName) = .error (.layout wrong) →
      Reports session (.list source) wrong

theorem reports_of_fault? {session : Session} {errand : Errand} {fault : Fault}
    (found : session.fault? errand = some fault) : session.Reports errand fault := by
  cases errand with
  | run text =>
      rw [fault?] at found
      cases read : text.program with
      | error rejection =>
          rw [read] at found
          exact .rejected read (Layout.eq_ok_of_toOption found)
      | ok program =>
          rw [read] at found
          dsimp only at found
          split at found
          · next failed =>
            obtain rfl := Option.some.inj found
            exact .failed read failed
          · cases found
  | outline source =>
      obtain ⟨rejection, rejected, found⟩ := Source.exists_rejection found
      exact .outline rejected found
  | list source =>
      rw [fault?] at found
      split at found
      · next rejected =>
        obtain rfl := Option.some.inj found
        exact .list rejected
      · cases found
  | reset | nothing => cases found

/-- A fault is shown, perhaps with a closing remark. -/
theorem Reports.shown {session : Session} {errand : Errand} {fault : Fault}
    (reports : session.Reports errand fault) {turn : Turn} (done : errand.Done session turn) :
    ∃ closing, turn.shown = .ok (some (faultText fault ++ closing)) := by
  cases reports with
  | rejected rejected found =>
      obtain ⟨-, closing, shown⟩ := done
      rw [session.evaluate_of_rejected rejected] at shown
      exact ⟨closing, shown _ (rejectionText_of_fault found)⟩
  | failed accepted failed =>
      obtain ⟨-, closing, shown⟩ := done
      rw [session.evaluate_of_accepted accepted] at shown
      exact ⟨closing, shown _ (by rw [failed, resultText])⟩
  | @outline source rejection _ rejected found =>
      have shown : treeText source = rejectionText source rejection := by
        unfold treeText
        rw [Passage.program] at rejected
        rw [rejected]
      exact ⟨"", by rw [done.2, shown, rejectionText_of_fault found, String.append_empty]⟩
  | list found => exact ⟨"", by rw [done.2, tokensText, found, String.append_empty]⟩

/-! ## What a session remembers -/

/-- A function is written in one of some texts. -/
def Known (texts : List Passage) (parameters : List Pattern) (body : Block Node) : Prop :=
  ∃ text ∈ texts, text.Writes parameters body

/-- The functions within reach of a session are written in given texts. -/
structure Recalls (texts : List Passage) (session : Session) : Prop where
  settled : ∃ tops, session.interpreter.Settled tops
  carries : session.interpreter.Carries (Known texts)

theorem recalls_new (settings : Settings) (fuel : Nat) : (new settings fuel).Recalls [] :=
  ⟨⟨_, Interpreter.settled_new settings⟩, Interpreter.carries_new settings⟩

namespace Recalls

variable {texts : List Passage} {session : Session} (recalls : session.Recalls texts)

include recalls

theorem carries_cons (text : Passage) : session.interpreter.Carries (Known (text :: texts)) := by
  refine recalls.carries.mono fun parameters body known => ?_
  obtain ⟨earlier, member, writes⟩ := known
  exact ⟨earlier, List.mem_cons_of_mem _ member, writes⟩

theorem run {text : Passage} {program : Program} (accepted : text.program = .ok program)
    (fuel : Nat) :
    (session.interpreter.run program fuel).2.Carries (Known (text :: texts)) ∧
      ∀ fault, (session.interpreter.run program fuel).1 = .error (.fault fault) →
        ∃ location, fault.location = some location ∧
          KnownPlace (Known (text :: texts)) program location := by
  refine (recalls.carries_cons text).run (fun parameters body writes => ?_) ?_ fuel
  · exact ⟨text, List.mem_cons_self, program, accepted, writes⟩
  · rintro parameters body ⟨earlier, member, writes⟩ parameters' body' inner
    exact ⟨earlier, member, writes.inner inner⟩

theorem evaluate (text : Passage) :
    (session.evaluate text.source text.file).session.Recalls (text :: texts) := by
  cases read : text.program with
  | error rejection =>
      rw [session.evaluate_of_rejected read]
      exact ⟨recalls.settled, recalls.carries_cons text⟩
  | ok program =>
      obtain ⟨tops, settled⟩ := recalls.settled
      rw [session.evaluate_of_accepted read]
      exact ⟨⟨tops, settled.run program _⟩, (recalls.run read _).1⟩

/-- What an errand leaves in memory. -/
theorem done {errand : Errand} {turn : Turn} (done : errand.Done session turn) :
    turn.session.Recalls (errand.remember texts) := by
  obtain ⟨tops, settled⟩ := recalls.settled
  cases errand with
  | run text => exact done.1 ▸ recalls.evaluate text
  | outline source | list source => exact done.1 ▸ recalls
  | reset =>
      rw [Errand.Done] at done
      refine ⟨⟨_, done ▸ settled.reset⟩, ?_⟩
      rw [done]
      exact settled.carries_reset
  | nothing =>
      rw [Errand.Done] at done
      exact ⟨⟨tops, done ▸ settled⟩, done ▸ recalls.carries⟩

/-- A text fails at a place of its own or in a function of an earlier one. -/
theorem place_of_failed {text : Passage} {program : Program}
    (accepted : text.program = .ok program) {fuel : Nat} {wrong : Fault}
    (failed : (session.interpreter.run program fuel).1 = .error (.fault wrong)) :
    ∃ location, wrong.location = some location ∧
      (location ∈ text.places ∨ ∃ earlier ∈ texts, earlier.FunctionAt location) := by
  obtain ⟨location, here, place⟩ := (recalls.run accepted fuel).2 wrong failed
  refine ⟨location, here, ?_⟩
  rcases place with place | ⟨parameters, body, ⟨earlier, member, writes⟩, place⟩
  · exact .inl (Passage.mem_places_of_hasPlace accepted place)
  · have function : earlier.FunctionAt location := ⟨parameters, body, writes, place⟩
    rcases List.mem_cons.mp member with rfl | member
    · exact .inl function.mem_places
    · exact .inr ⟨earlier, member, function⟩

end Recalls

/-! ## Histories -/

/-- A session after some inputs, each with the files at hand. -/
def after (session : Session) : List (Files × String) → Session
  | [] => session
  | (files, input) :: rest => (session.respond files input).session.after rest

/-- The texts that were run since the last reset, in a session that remembers some texts. -/
def told (texts : List Passage) : List (Files × String) → List Passage
  | [] => texts
  | (files, input) :: rest => told ((errand files input).remember texts) rest

theorem Recalls.after {texts : List Passage} {session : Session} (recalls : session.Recalls texts)
    (history : List (Files × String)) : (session.after history).Recalls (told texts history) := by
  induction history generalizing texts session with
  | nil => exact recalls
  | cons entry rest ih =>
      obtain ⟨files, input⟩ := entry
      exact ih (recalls.done (session.done_respond files input))

/-- The place of a fault that a session shows, and the line that is quoted. -/
theorem Reports.quotes {session : Session} {errand : Errand} {fault : Fault}
    (reports : session.Reports errand fault) {texts : List Passage}
    (recalls : session.Recalls texts) :
    ∃ text location, errand.text? = some text ∧ fault.location = some location ∧
      fault.sourceLine = errand.line? location ∧ (location ∈ text.places ∨
        (∃ program, text.program = .ok program) ∧
          ∃ earlier ∈ texts, earlier.FunctionAt location) := by
  cases reports with
  | rejected rejected found =>
      obtain ⟨location, here, quoted, member⟩ := Passage.rejected rejected found
      exact ⟨_, location, rfl, here, quoted, .inl member⟩
  | @failed text program wrong accepted failed =>
      obtain ⟨location, here, place⟩ := recalls.place_of_failed accepted failed
      obtain ⟨location', here', quoted⟩ :=
        Fault.quotes_withSource here (Interpreter.unquoted_of_run failed) text.source
      have here := (wrong.location_withSource text.source).trans here
      obtain rfl := Option.some.inj (here.symm.trans here')
      exact ⟨text, location, rfl, here, quoted, place.imp_right fun earlier =>
        ⟨⟨program, accepted⟩, earlier⟩⟩
  | outline rejected found =>
      obtain ⟨location, here, quoted, member⟩ := Passage.rejected rejected found
      exact ⟨_, location, rfl, here, quoted, .inl member⟩
  | @list source _ found =>
      let text : Passage := ⟨source, inputName⟩
      obtain ⟨location, here, quoted, member⟩ := text.misaligned found
      exact ⟨text, location, rfl, here, quoted, .inl member⟩

theorem Errand.mem_lines {errand : Errand} {text : Passage} (read : errand.text? = some text)
    {location : Location} {line : String} (quoted : errand.line? location = some line) :
    line ∈ Text.lines text.source := by
  have among {source : String} (found : Text.line? source location.line = some line) :
      line ∈ Text.lines source := by
    rw [Text.line?] at found
    split at found
    · exact List.mem_of_getElem? found
    · cases found
  cases errand with
  | run | outline =>
      obtain rfl := Option.some.inj read
      exact among quoted
  | list | reset | nothing => cases quoted

/-- Whatever a session was told before, a fault that it shows quotes the line that has the number of
its place in the text that is being read, if it quotes one. The place is in that text, or the text
is a program and the place is in a function of another text that was run since the last reset. So
the place and the line belong to one text if no text that was run since then defines functions. -/
theorem shown_fault_quotes_text_read {settings : Settings} {fuel : Nat}
    {history : List (Files × String)} {files : Files} {input : String} {fault : Fault}
    (raised : ((new settings fuel).after history).fault? (errand files input) = some fault) :
    ∃ text location closing, (errand files input).text? = some text ∧
      (((new settings fuel).after history).respond files input).shown =
        .ok (some (faultText fault ++ closing)) ∧
      fault.location = some location ∧ fault.sourceLine = (errand files input).line? location ∧
      (location ∈ text.places ∨ (∃ program, text.program = .ok program) ∧
        ∃ earlier ∈ told [] history, earlier.FunctionAt location ∧ location ∈ earlier.places) ∧
      ∀ line, fault.sourceLine = some line → line ∈ Text.lines text.source ∧
        ((∀ earlier ∈ told [] history, ∀ parameters body, ¬earlier.Writes parameters body) →
          location ∈ text.places) := by
  have recalls := (recalls_new settings fuel).after history
  generalize (new settings fuel).after history = session at raised recalls
  have reports := reports_of_fault? raised
  obtain ⟨closing, shown⟩ := reports.shown (session.done_respond files input)
  obtain ⟨text, location, read, here, quoted, place⟩ := reports.quotes recalls
  refine ⟨text, location, closing, read, shown, here, quoted, ?_, fun line carried => ⟨?_, ?_⟩⟩
  · rcases place with place | ⟨accepted, earlier, member, function⟩
    · exact .inl place
    · exact .inr ⟨accepted, earlier, member, function, function.mem_places⟩
  · exact Errand.mem_lines read (quoted.symm.trans carried)
  · intro plain
    rcases place with place | ⟨-, earlier, member, parameters, body, writes, -⟩
    · exact place
    · exact absurd writes (plain earlier member parameters body)

/-- A function on two lines fails in a call on two other lines, the second of which is quoted. -/
theorem shown_fault_quotes_text_read_call :
    let files : Files := ⟨Path.ofText "", fun _ => .error .missing⟩
    let history := [(files, "x := 1"), (files, "f := fn x ->\n    x + y"), (files, ":ast f")]
    ∃ fault closing,
      ((new ⟨false, none, 500⟩ 20).after history).fault? (errand files "f (\n    2)") = some fault ∧
      (((new ⟨false, none, 500⟩ 20).after history).respond files "f (\n    2)").shown =
        .ok (some (faultText fault ++ closing)) ∧
      fault.location = some ⟨2, 9, 21, some "<repl>"⟩ ∧ fault.sourceLine = some "    2)" ∧
      ∃ earlier ∈ told [] history, earlier.FunctionAt ⟨2, 9, 21, some "<repl>"⟩ := by
  intro files history
  have stops : (((new ⟨false, none, 500⟩ 20).after history).fault?
      (errand files "f (\n    2)")).map (·.location) = some (some ⟨2, 9, 21, some "<repl>"⟩) := by
    decide +kernel
  obtain ⟨fault, raised, here⟩ := Option.map_eq_some_iff.mp stops
  obtain ⟨text, location, closing, read, shown, here', quoted, place, -⟩ :=
    shown_fault_quotes_text_read raised
  obtain rfl := Option.some.inj (here.symm.trans here')
  have same : (errand files "f (\n    2)").text? = some ⟨"f (\n    2)", "<repl>"⟩ := by
    decide +kernel
  obtain rfl := Option.some.inj (same.symm.trans read)
  have quoted : fault.sourceLine = some "    2)" := quoted.trans (by decide +kernel)
  have elsewhere : (⟨2, 9, 21, some "<repl>"⟩ : Location) ∉
      Passage.places ⟨"f (\n    2)", "<repl>"⟩ := by
    decide +kernel
  obtain ⟨-, earlier, member, function, -⟩ := place.resolve_left elsewhere
  exact ⟨fault, closing, raised, shown, here, quoted, earlier, member, function⟩

/-- A function of one text fails in a call in the next one. Its place is in the first text, and the
line that is quoted is the second one. -/
theorem failed_function_quotes_call :
    let files : Files := ⟨Path.ofText "", fun _ => .error .missing⟩
    let history := [(files, "f := fn x -> x + y")]
    let place : Location := ⟨1, 18, 17, some "<repl>"⟩
    (((new ⟨false, none, 500⟩ 20).after history).fault? (errand files "f 1")).map
        (fun fault => (fault.location, fault.sourceLine)) = some (some place, some "f 1") ∧
      told [] history = [⟨"f := fn x -> x + y", "<repl>"⟩] ∧
      place ∈ Passage.places ⟨"f := fn x -> x + y", "<repl>"⟩ ∧
      "f 1" ∉ Text.lines "f := fn x -> x + y" ∧ place ∉ Passage.places ⟨"f 1", "<repl>"⟩ := by
  decide +kernel

end Session

end Offside
