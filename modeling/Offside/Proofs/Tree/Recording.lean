import Offside.Proofs.Layout.Relocation
import Offside.Proofs.Tree.Termination
import Offside.Source

/-!
# What parsers record

A parser that stops tells why, and it has recorded remarks for diagnostics. Wherever it stops, in
the program or in an expression within string literals, there is one remark on what is wrong with a
token, and there is none on the layout of an expression.
-/

namespace Offside

namespace Tree

/-- The remark on a flaw, unless it is one of layout. -/
def Flaw.remark? : Flaw → Option Remark
  | .layout _ => none
  | .invalid token => some (.invalid token.payload.shown token.location)
  | .unexpected expectation token =>
    some (.unexpected expectation.text token.lexeme
      (if token.kind = .identifier then token.lexeme.length else 1) token.location)
  | .unclosed delimiter opened token =>
    some (.unclosed delimiter.opening opened token.location)

/-- The remark on a defect is recorded once, and a defect of layout is one that layout reports. -/
structure Defect.Reported (defect : Defect) : Prop where
  recorded : defect.recorded = defect.flaw.remark?.toList
  layout : ∀ fault, defect.flaw = .layout fault →
    ∃ wrong location, fault = Layout.Defect.fault wrong location

theorem reported_ofToken (expectation : Expectation) (token : Token) :
    (Defect.ofToken expectation token).Reported := by
  unfold Defect.ofToken
  split <;> exact ⟨rfl, by rintro _ ⟨⟩⟩

/-- Whenever an outcome is a defect, it is a reported one. -/
def Reports {α : Type} (outcome : Except Defect α) : Prop :=
  ∀ defect, outcome = .error defect → defect.Reported

namespace Reports

variable {α β : Type}

theorem ok (result : α) : Reports (.ok result) := by
  rintro _ ⟨⟩

theorem error {defect : Defect} (reported : defect.Reported) :
    Reports (.error defect : Except Defect α) := by
  rintro _ ⟨⟩
  exact reported

theorem bind {outcome : Except Defect α} {goOn : α → Except Defect β} (reports : Reports outcome)
    (goesOn : ∀ result, Reports (goOn result)) : Reports (outcome >>= goOn) := by
  cases outcome with
  | ok result => exact goesOn result
  | error defect => exact error (reports defect rfl)

/-- What the parser of an expression in a string literal has recorded is handed on. -/
theorem parseParts {interpolate : List Token → Except Defect Node}
    (each : ∀ inner, Reports (interpolate inner)) (segments : List Segment) :
    Reports (parseParts interpolate segments) := by
  induction segments with
  | nil => exact ok []
  | cons segment rest ih =>
      cases segment with
      | text content => exact ih.bind fun _ => ok _
      | expression tokens source => exact (each tokens).bind fun _ => ih.bind fun _ => ok _

theorem of_explained {interpolate : List Token → Except Defect Node}
    (each : ∀ inner, Reports (interpolate inner)) {tokens : List Token}
    {outcome : Except Defect (α × List Token)}
    (explained : Explained interpolate .part tokens outcome) : Reports outcome := by
  rintro defect rfl
  obtain ⟨_, _, _, stuck⟩ := explained
  cases stuck with
  | unexpected expectation => exact reported_ofToken expectation _
  | unclosed => exact ⟨rfl, by rintro _ ⟨⟩⟩
  | endOfBlock => exact reported_ofToken _ _
  | interpolation _ _ failed => exact parseParts each _ defect failed

end Reports

theorem reports_parseInterpolation (depth : Nat) (tokens : List Token) :
    Reports (parseInterpolation depth tokens) := by
  induction depth generalizing tokens with
  | zero => exact .error (reported_ofToken _ _)
  | succ depth ih =>
      rw [parseInterpolation]
      have ordinary := Layout.ordinary_normalize tokens
      cases found : Layout.normalize tokens with
      | error fault =>
          rw [found] at ordinary
          obtain ⟨wrong, place, -, rfl⟩ := ordinary
          refine .error ⟨rfl, ?_⟩
          rintro _ ⟨⟩
          exact ⟨wrong, place, rfl⟩
      | ok output =>
          exact (Reports.of_explained ih (explained_parseInterpolated _ output)).bind fun _ => .ok _

theorem reports_parse (tokens : List Token) : Reports (parse tokens) :=
  (Reports.of_explained (reports_parseInterpolation _) (explained_parseProgram _ tokens)).bind
    fun _ => .ok _

end Tree

/-- What the parser of a source text has recorded. -/
theorem Source.reported_of_rejected {source : String} {file : Option String} {wrong : Tree.Defect}
    (rejected : Source.program source file = .error (.defect wrong)) : wrong.Reported := by
  rw [Source.program] at rejected
  cases found : Source.tokens source file with
  | error rejection =>
      rw [found] at rejected
      obtain rfl := Except.error.inj rejected
      rw [Source.tokens] at found
      split at found
      · cases found
      · split at found <;> cases found
  | ok tokens =>
      simp only [found, Bind.bind, Except.bind] at rejected
      have reports := Tree.reports_parse tokens
      cases parsed : Tree.parse tokens with
      | ok program =>
          rw [parsed] at rejected
          cases rejected
      | error defect =>
          rw [parsed] at rejected
          cases rejected
          exact reports _ parsed

end Offside
