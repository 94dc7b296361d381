import Offside.Proofs.Interpreter.Located
import Offside.Proofs.Source.Rejections
import Offside.Proofs.Text.Lines
import Mathlib.Data.List.Sort

/-!
# Quoted lines

A fault of a source text quotes the line with the number of its place, and diagnostics show the same
line under that number. The place is on that line, unless a line boundary other than a line feed
stands before the end of the line: the lines to quote end there too, but their numbers count line
feeds only.
-/

namespace Offside

/-! ## Faults -/

namespace Fault

/-- A fault quotes the line with the number of its place, if the text has one. -/
def Quotes (source : String) (fault : Fault) : Prop :=
  ∃ location, fault.location = some location ∧ fault.sourceLine = Text.line? source location.line

theorem quotes_withSource {fault : Fault} {location : Location}
    (here : fault.location = some location) (unquoted : fault.sourceLine = none)
    (source : String) : (fault.withSource source).Quotes source := by
  rw [withSource, here, unquoted]
  exact ⟨location, rfl, rfl⟩

theorem Quotes.withSource {fault : Fault} {source : String} (quotes : fault.Quotes source) :
    (fault.withSource source).Quotes source := by
  obtain ⟨location, here, line⟩ := quotes
  cases quoted : fault.sourceLine with
  | none => exact quotes_withSource here quoted source
  | some text =>
      rw [Fault.withSource, here, quoted]
      exact ⟨location, here, line⟩

end Fault

theorem Tree.Defect.Reported.quotes {defect : Tree.Defect} (reported : defect.Reported)
    (source : String) : ((defect.fault source).withSource source).Quotes source := by
  obtain ⟨flaw, recorded⟩ := defect
  cases flaw with
  | layout fault =>
      obtain ⟨wrong, location, rfl⟩ := reported.layout fault rfl
      exact Fault.quotes_withSource rfl rfl source
  | invalid | unexpected | unclosed => exact (Fault.quotes_withSource rfl rfl source).withSource

theorem Rejection.Fits.quotes {rejection : Rejection} {invalid? : Option Token}
    (fits : rejection.Fits invalid?) {source : String} {fault : Fault}
    (found : rejection.fault source = .ok fault) : fault.Quotes source := by
  cases rejection with
  | overflow => exact fits.elim
  | layout wrong =>
      obtain ⟨defect, location, rfl⟩ := fits
      obtain rfl := Except.ok.inj found
      exact Fault.quotes_withSource rfl rfl source
  | defect wrong =>
      obtain rfl := Except.ok.inj found
      exact fits.2.quotes source

/-- Worlds and values of any kind, and faults that quote nothing. -/
def unquotedFrame : Frame where
  Sound _ := True
  Leads _ _ := True
  Code _ _ := True
  Captured _ _ := True
  Exhausts _ := True
  Located _ := True
  Faults _ fault := fault.sourceLine = none
  sound _ := trivial
  refl _ := trivial
  trans _ _ := trivial
  captured_later _ _ := trivial
  faults _ _ _ := rfl

/-- Evaluations leave it to others to quote source text. -/
def unquoted (settings : Settings) : Upkeep settings where
  toFrame := unquotedFrame
  Scope _ _ := True
  Fit _ := True
  exhausts _ := trivial
  scope_later _ _ := trivial
  scope_captured _ := trivial
  located {node} _ := node.located_anywhere
  located_code _ pattern _ := pattern.located_anywhere
  part _ _ _ := trivial
  code _ := trivial
  body _ _ _ := trivial
  unbound _ _ _ := rfl
  quiet _ _ := trivial
  opened _ _ := ⟨trivial, trivial⟩
  value _ _ _ := Value.holds_of_forall (fun _ _ _ => ⟨trivial, trivial⟩) _
  defined _ _ _ _ := trivial
  rebound _ _ _ _ _ _ := trivial
  updated _ _ _ _ _ _ _ _ := trivial

theorem Interpreter.unquoted_of_run {interpreter : Interpreter} {program : Program} {fuel : Nat}
    {fault : Fault} (raised : (interpreter.run program fuel).1 = .error (.fault fault)) :
    fault.sourceLine = none := by
  have ends := (unquoted interpreter.settings).ending trivial trivial program
    (fun _ _ => trivial) fuel
  rw [run_eq] at raised
  generalize interpreter.ending program fuel = ending at ends raised
  cases ends with
  | ok => cases raised
  | error _ stops =>
      obtain rfl := Except.error.inj raised
      exact stops

/-! ## Faults of a source text -/

/-- The faults of a source text: it is no program, or a run of it in a new interpreter fails. -/
inductive Source.Raises (source : String) (file : Option String) : Fault → Prop
  | rejected {rejection : Rejection} {fault : Fault} :
      Source.program source file = .error rejection → rejection.fault source = .ok fault →
      Raises source file fault
  | failed {settings : Settings} {program : Program} {fuel : Nat} {fault : Fault} :
      Source.program source file = .ok program →
      ((Interpreter.new settings).run program fuel).1 = .error (.fault fault) →
      Raises source file (fault.withSource source)

namespace Source

variable {source : String} {file : Option String} {fault : Fault}

theorem raises_of_runSource {settings : Settings} {fuel : Nat}
    (raised : (runSource settings source file fuel).1 = .error (.fault fault)) :
    Raises source file fault := by
  rw [runSource] at raised
  cases found : Source.program source file with
  | error rejection =>
      rw [found] at raised
      have stops : rejection.stop source = .fault fault := Except.error.inj raised
      refine .rejected found ?_
      rw [Rejection.stop] at stops
      split at stops
      case h_1 wrong same => rw [same, Stop.fault.inj stops]
      case h_2 => cases stops
  | ok program =>
      rw [found] at raised
      dsimp only at raised
      cases failed : ((Interpreter.new settings).run program fuel).1 with
      | ok value =>
          rw [failed] at raised
          cases raised
      | error stop =>
          rw [failed] at raised
          have stops : stop.withSource source = .fault fault := Except.error.inj raised
          cases stop with
          | fault wrong =>
              obtain rfl := Stop.fault.inj stops
              exact .failed found failed
          | overflow | exhausted => cases stops

namespace Raises

variable (raises : Raises source file fault)
include raises

theorem exists_scan : ∃ tokens, Token.scan source file = .ok tokens := by
  cases scans : Token.scan source file with
  | ok tokens => exact ⟨tokens, rfl⟩
  | error overflow =>
      have refused : Source.program source file = .error (.overflow overflow) := by
        rw [Source.program, Source.tokens, scans]
        rfl
      cases raises with
      | rejected rejected found =>
          obtain rfl := Except.error.inj (refused.symm.trans rejected)
          cases found
      | failed accepted => cases refused.symm.trans accepted

/-- The fault is at the place of a token, perhaps in an interpolated expression. -/
theorem located {tokens : List Token} (scans : Token.scan source file = .ok tokens) :
    ∃ token ∈ Token.nestedAll tokens, fault.location = some token.location := by
  have within := located_program scans
  suffices ∃ location, fault.location = some location ∧
      ∃ token ∈ Token.nestedAll tokens, token.location = location by
    obtain ⟨_, here, token, member, rfl⟩ := this
    exact ⟨token, member, here⟩
  cases raises with
  | @rejected rejection _ rejected found =>
      rw [rejected] at within
      obtain ⟨location, here, member⟩ := within
      have stops : rejection.stop source = .fault fault := by rw [Rejection.stop, found]
      exact ⟨location, (Rejection.location_of_stop stops).trans here, member⟩
  | failed accepted failed =>
      rw [accepted] at within
      obtain ⟨location, here, member⟩ := Interpreter.located_of_run_new within failed
      exact ⟨location, (Fault.location_withSource ..).trans here, member⟩

theorem quotes : fault.Quotes source := by
  obtain ⟨tokens, scans⟩ := raises.exists_scan
  cases raises with
  | rejected rejected found => exact ((judges_program scans).2 _ rejected).quotes found
  | @failed _ _ _ wrong accepted failed =>
      obtain ⟨token, -, here⟩ := (Raises.failed accepted failed).located scans
      rw [Fault.location_withSource] at here
      exact Fault.quotes_withSource here (Interpreter.unquoted_of_run failed) source

end Raises

end Source

/-! ## Diagnostics -/

namespace Diagnostic

/-- A line of source text under its number. -/
def numbered (palette : Palette) (number : Int) (line : String) : String :=
  palette.blue ++ lineNumber number ++ " |" ++ palette.reset ++ " " ++ line

/-- A diagnostic shows a line under a number, between lines with smaller numbers and lines with
greater ones. -/
def Shows (palette : Palette) (source : String) (diagnostic : Diagnostic) (number : Int)
    (line : String) : Prop :=
  ∃ (first last marks : List String) (above below : List Int),
    (∀ other ∈ above, other < number) ∧ (∀ other ∈ below, number < other) ∧
    diagnostic.render palette source = String.intercalate "\n"
      (first ++ above.flatMap (diagnostic.labelledLine palette source) ++
        numbered palette number line :: marks ++
        below.flatMap (diagnostic.labelledLine palette source) ++ last)

theorem nodup_eraseDups (numbers : List Int) : numbers.eraseDups.Nodup := by
  match numbers with
  | [] => simp
  | number :: rest =>
      rw [List.eraseDups_cons, List.nodup_cons]
      exact ⟨by simp [List.mem_eraseDups], nodup_eraseDups _⟩
termination_by numbers.length
decreasing_by exact Nat.lt_succ_of_le (List.length_filter_le _ _)

theorem pairwise_labelledNumbers (diagnostic : Diagnostic) :
    diagnostic.labelledNumbers.Pairwise (· < ·) := by
  have sorted : diagnostic.labelledNumbers.Pairwise (· ≤ ·) := List.sortedLE_mergeSort.pairwise
  have distinct : diagnostic.labelledNumbers.Pairwise (· ≠ ·) :=
    (List.mergeSort_perm _ _).nodup_iff.mpr (nodup_eraseDups _)
  exact sorted.imp₂ (fun _ _ => lt_of_le_of_ne) distinct

theorem exists_render_eq (palette : Palette) (source : String) (diagnostic : Diagnostic) :
    ∃ first last, diagnostic.render palette source =
      String.intercalate "\n" (first ++ (diagnostic.excerpt palette source ++ last)) := by
  rw [render, List.append_assoc, List.append_assoc]
  exact ⟨_, _, rfl⟩

/-- A line with a label is shown under its number. -/
theorem shows_of_label {diagnostic : Diagnostic} {label : Label}
    (member : label ∈ diagnostic.labels) {source line : String}
    (found : Text.line? source label.span.startLine = some line) (palette : Palette) :
    diagnostic.Shows palette source label.span.startLine line := by
  have filled : ¬(diagnostic.labels.isEmpty || (Text.lines source).isEmpty) := by
    have labelled := List.ne_nil_of_mem member
    have lines : Text.lines source ≠ [] := by
      intro blank
      simp [Text.line?, blank] at found
    simp [labelled, lines]
  have among : label.span.startLine ∈ diagnostic.labelledNumbers :=
    List.mem_mergeSort.mpr (List.mem_eraseDups.mpr (List.mem_map_of_mem member))
  obtain ⟨above, below, split⟩ := List.append_of_mem among
  have sorted := diagnostic.pairwise_labelledNumbers
  rw [split, List.pairwise_append, List.pairwise_cons] at sorted
  obtain ⟨marks, shown⟩ : ∃ marks, diagnostic.labelledLine palette source label.span.startLine =
      numbered palette label.span.startLine line :: marks := by
    rw [labelledLine, found]
    exact ⟨_, rfl⟩
  obtain ⟨first, last, rendered⟩ := exists_render_eq palette source diagnostic
  refine ⟨first ++ [bar palette], bar palette :: last, marks, above, below,
    fun other inAbove => sorted.2.2 other inAbove _ List.mem_cons_self, sorted.2.1.1, ?_⟩
  rw [rendered, excerpt, if_neg filled, split, List.flatMap_append, List.flatMap_cons, shown]
  simp

theorem exists_label_ofFault {fault : Fault} {location : Location}
    (here : fault.location = some location) (file : String) :
    ∃ label ∈ (ofFault file fault).labels, label.span.startLine = location.line := by
  obtain ⟨kind, message, _, line⟩ := fault
  obtain rfl := here
  cases kind with
  | unboundName name candidates =>
      simp only [ofFault, unboundName]
      split <;> exact ⟨_, List.mem_cons_self, rfl⟩
  | _ => exact ⟨_, List.mem_cons_self, rfl⟩

theorem exists_label_ofDefect {source file : String} {defect : Tree.Defect}
    (reported : defect.Reported) {diagnostic : Diagnostic}
    (found : diagnostic ∈ ofDefect source file defect) {location : Location}
    (here : defect.place? = some location) :
    ∃ label ∈ diagnostic.labels, label.span.startLine = location.line := by
  by_cases blank : source.isEmpty
  · rw [ofDefect, if_pos blank] at found
    cases found
  rw [reported.ofDefect blank, Option.mem_toList] at found
  obtain ⟨flaw, recorded⟩ := defect
  cases flaw with
  | layout => cases found
  | invalid | unexpected | unclosed =>
      obtain rfl := Option.some.inj found
      obtain rfl := Option.some.inj here
      exact ⟨_, List.mem_cons_self, rfl⟩

end Diagnostic

namespace Source

/-- The place of a fault, and where its line is among the lines between line feeds. -/
theorem Raises.reached {source : String} {file : Option String} {fault : Fault}
    (raises : Raises source file fault) : ∃ location, fault.location = some location ∧
      location.offset ≤ source.length ∧
      location.line = 1 + (source.toList.take location.offset).count '\n' := by
  obtain ⟨tokens, scans⟩ := raises.exists_scan
  obtain ⟨token, member, here⟩ := raises.located scans
  have whole : source.toList = [] ++ (source.toList ++ []) := (List.append_nil _).symm
  obtain ⟨bound, place⟩ := (Token.placed_scanFrom whole scans token member).reached.eq rfl
  have line := congrArg Location.line place
  rw [Location.advanceAll_line] at line
  exact ⟨token.location, here, bound, line⟩

/-- The fault of a text that is no program is where the text is rejected. -/
theorem Raises.location_of_rejected {source : String} {file : Option String} {fault : Fault}
    (raises : Raises source file fault) {rejection : Rejection}
    (rejected : Source.program source file = .error rejection) :
    fault.location = rejection.place? := by
  cases raises with
  | rejected rejected' found =>
      obtain rfl := Except.error.inj (rejected.symm.trans rejected')
      exact Rejection.location_of_stop (by rw [Rejection.stop, found])
  | failed accepted => cases rejected.symm.trans accepted

/-- The line to quote of a place is the line around it, if there are no other boundaries up to its
end. -/
theorem line?_eq_lineAt {source line : String} {location : Location}
    (bound : location.offset ≤ source.length)
    (number : location.line = 1 + (source.toList.take location.offset).count '\n')
    (found : Text.line? source location.line = some line)
    (unbroken : ∀ earlier ∈ (source.toList.splitOn '\n').take
      ((source.toList.take location.offset).count '\n' + 1), Text.Unbroken earlier) :
    line.toList = Text.withoutReturn (Text.lineAt source.toList location.offset) := by
  have around := Text.getElem?_splitOn (source.toList.take location.offset)
    (source.toList.drop location.offset)
  rw [List.take_append_drop, List.length_take_of_le (by rwa [String.length_toList])] at around
  have index : (location.line - 1).toNat = (source.toList.take location.offset).count '\n' := by
    omega
  rw [Text.line?, if_pos (by omega), index, Text.lines, List.getElem?_map] at found
  obtain ⟨chars, split, rfl⟩ := Option.map_eq_some_iff.mp found
  have same := Text.getElem?_splitLines unbroken split
  rw [around] at same
  rw [String.toList_ofList]
  exact (Option.some.inj same).symm

/-- A fault of a source text, found in it or in a run of it, has a place in the text, and the number
of its line counts the line feeds before it. The line that the fault quotes is the one that its
diagnostics show under that number. It is the line around the place, up to a carriage return, if
only line feeds and carriage returns before them end a line up to there. -/
theorem raised_fault_quotes_line {source : String} {file : Option String} {fault : Fault}
    (raised : (∃ rejection, Source.program source file = .error rejection ∧
        rejection.fault source = .ok fault) ∨
      ∃ settings fuel, (runSource settings source file fuel).1 = .error (.fault fault)) :
    ∃ location, fault.location = some location ∧ location.offset ≤ source.length ∧
      location.line = 1 + (source.toList.take location.offset).count '\n' ∧
      fault.sourceLine = Text.line? source location.line ∧
      ∀ line, fault.sourceLine = some line →
        ((∀ earlier ∈ (source.toList.splitOn '\n').take
            ((source.toList.take location.offset).count '\n' + 1), Text.Unbroken earlier) →
          line.toList = Text.withoutReturn (Text.lineAt source.toList location.offset)) ∧
        ∀ palette name,
          (Diagnostic.ofFault name fault).Shows palette source location.line line ∧
          ∀ defect, Source.program source file = .error (.defect defect) →
            ∀ diagnostic ∈ Diagnostic.ofDefect source name defect,
              diagnostic.Shows palette source location.line line := by
  have raises : Raises source file fault := by
    rcases raised with ⟨rejection, rejected, found⟩ | ⟨settings, fuel, raised⟩
    · exact .rejected rejected found
    · exact raises_of_runSource raised
  obtain ⟨location, here, bound, number⟩ := raises.reached
  obtain ⟨_, here', quoted⟩ := raises.quotes
  obtain rfl := Option.some.inj (here.symm.trans here')
  refine ⟨location, here, bound, number, quoted, fun line carried => ?_⟩
  have found := quoted.symm.trans carried
  refine ⟨line?_eq_lineAt bound number found, fun palette name => ⟨?_, ?_⟩⟩
  · obtain ⟨label, member, same⟩ := Diagnostic.exists_label_ofFault here name
    rw [← same] at found ⊢
    exact Diagnostic.shows_of_label member found palette
  · intro defect rejected diagnostic member
    have place := (raises.location_of_rejected rejected).symm.trans here
    obtain ⟨label, member, same⟩ :=
      Diagnostic.exists_label_ofDefect (reported_of_rejected rejected) member place
    rw [← same] at found ⊢
    exact Diagnostic.shows_of_label member found palette

/-- A name without a value on the second of three lines that end with carriage returns. -/
theorem raised_fault_quotes_line_returns :
    let source := "# a\r\nx +\r\n    y"
    ∃ fault location line, (runSource ⟨false, none, 500⟩ source none 10).1 = .error (.fault fault) ∧
      fault.location = some location ∧ location.line = 2 ∧ fault.sourceLine = some line ∧
      (∀ earlier ∈ (source.toList.splitOn '\n').take
        ((source.toList.take location.offset).count '\n' + 1), Text.Unbroken earlier) ∧
      line.toList = Text.withoutReturn (Text.lineAt source.toList location.offset) ∧
      (Diagnostic.ofFault "f" fault).Shows .blank source 2 line := by
  intro source
  have stops : ((runSource ⟨false, none, 500⟩ source none 10).1.map fun _ => true).mapError
      Stop.place? = .error (some ⟨2, 1, 5, none⟩) := by
    decide +kernel
  cases raised : (runSource ⟨false, none, 500⟩ source none 10).1 with
  | ok value =>
      rw [raised] at stops
      cases stops
  | error stop =>
      rw [raised] at stops
      obtain ⟨fault, rfl, here⟩ := Stop.exists_of_place? (Except.error.inj stops)
      obtain ⟨location, here', -, -, quoted, line⟩ :=
        raised_fault_quotes_line (.inr ⟨_, _, raised⟩)
      obtain rfl := Option.some.inj (here.symm.trans here')
      have second : Text.line? source 2 = some "x +" := by decide +kernel
      have quoted := quoted.trans second
      obtain ⟨around, shown⟩ := line _ quoted
      have table : ((source.toList.splitOn '\n').take
          ((source.toList.take 5).count '\n' + 1)).all (decide <| Text.Unbroken ·) := by
        decide +kernel
      have unbroken : ∀ earlier ∈ (source.toList.splitOn '\n').take
          ((source.toList.take 5).count '\n' + 1), Text.Unbroken earlier :=
        fun earlier member => of_decide_eq_true (List.all_eq_true.mp table earlier member)
      exact ⟨fault, _, "x +", rfl, here, rfl, quoted, unbroken, around unbroken,
        (shown .blank "f").1⟩

/-- A line separator in a comment: the fault at the bracket quotes the end of the comment. -/
theorem quotes_end_of_comment :
    let source := "# a\u2028b\n)"
    ((Source.program source none).map fun _ => ()).mapError (fun rejection =>
      (rejection.fault source).toOption.map fun fault => (fault.location, fault.sourceLine)) =
        .error (some (some ⟨2, 1, 6, none⟩, some "b")) ∧
      Text.lineAt source.toList 6 = [')'] := by
  decide +kernel

end Source

end Offside
