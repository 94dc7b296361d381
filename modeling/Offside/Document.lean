import Offside.Interpreter
import Offside.Text.Blank

/-!
# Documents in an editor

What an editor shows about a document: notices on what keeps it from being a program, and the
outline of the names that it binds at the top level. Lines and columns of an editor are counted from
zero.
-/

namespace Offside

namespace Document

/-- A stretch of a document, the end excluded. -/
structure Range where
  /-- Line of the first character. -/
  startLine : Int
  /-- Column of the first character. -/
  startColumn : Int
  /-- Line of the end. -/
  endLine : Int
  /-- Column of the end. -/
  endColumn : Int
  deriving DecidableEq

/-- A message about a stretch of a document. -/
structure Notice where
  /-- The stretch. -/
  range : Range
  /-- The message. -/
  message : String
  /-- How serious it is. -/
  severity : Severity
  /-- The code of the message, if it has one. -/
  code : Option String
  deriving DecidableEq

/-- Whether a character ends the word that a notice underlines. -/
def endsWord (c : Char) : Bool := Text.isSpace c || "()[],:".toList.contains c

/-- The number of columns to underline from `column` on: the word there, and at least one. -/
def wordLength (line : String) (column : Int) : Nat :=
  max 1 ((line.toList.drop column.toNat).takeWhile fun c => !endsWord c).length

/-- The notice of a fault underlines the word at its location. -/
def Notice.ofFault (fault : Fault) : Notice :=
  let line := match fault.location with
    | some location => max 0 (location.line - 1)
    | none => 0
  let column := match fault.location with
    | some location => max 0 (location.column - 1)
    | none => 0
  ⟨⟨line, column, line, column + wordLength (fault.sourceLine.getD "") column⟩,
    fault.kind.name ++ ": " ++ fault.message, .error, none⟩

/-- The range of a span, with at least one column. -/
def Range.ofSpan (span : Span) : Range :=
  let line := max 0 (span.startLine - 1)
  let column := max 0 (span.startColumn - 1)
  let endLine := max 0 (span.endLine - 1)
  let endColumn := max 0 (span.endColumn - 1)
  ⟨line, column, endLine,
    if endLine = line ∧ endColumn ≤ column then column + 1 else endColumn⟩

/-- The notice of a diagnostic, with notes and hints on lines of their own. -/
def Notice.ofDiagnostic (diagnostic : Diagnostic) : Notice :=
  let range := match diagnostic.primarySpan? with
    | some span => .ofSpan span
    | none => ⟨0, 0, 0, 1⟩
  ⟨range,
    String.intercalate "\n"
      (diagnostic.message :: diagnostic.notes.map ("note: " ++ ·) ++
        diagnostic.helps.map ("help: " ++ ·)),
    diagnostic.severity, some diagnostic.code⟩

/-- The notices on a document that is no program. -/
def noticesOf (name text : String) : Rejection → Except Overflow (List Notice)
  | .overflow refused => .error refused
  | .layout wrong => .ok [.ofFault (wrong.withSource text)]
  | .defect wrong =>
    match Diagnostic.ofDefect text name wrong with
    | [] => .ok [.ofFault ((wrong.fault text).withSource text)]
    | diagnostics => .ok (diagnostics.map .ofDiagnostic)

/-- Check a document: the notices on it, and its program if it has one. -/
def check (name text : String) : Except Overflow (List Notice × Option Program) :=
  match Source.program text (some name) with
  | .ok program => .ok ([], some program)
  | .error rejection => return (← noticesOf name text rejection, none)

/-- A name in the outline of a document. -/
structure Symbol where
  /-- The name. -/
  name : String
  /-- Whether it is bound to a function expression. -/
  isFunction : Bool
  /-- The name in the document. -/
  range : Range
  deriving DecidableEq

/-- The entry for a name at a location. -/
def Symbol.ofName (isFunction : Bool) (name : String) (location : Location) : Symbol :=
  let line := location.line - 1
  let column := location.column - 1
  ⟨name, isFunction, ⟨line, column, line, column + name.length⟩⟩

/-- Whether an expression is a function expression. -/
def isLambda : Node → Bool
  | .lambda _ _ _ => true
  | _ => false

/-- The entries for a statement of the top level: one for each name that it binds. -/
def symbolsOf : Node → List Symbol
  | .binding pattern value _ _ =>
    pattern.names.map fun (name, location) => .ofName (isLambda value) name location
  | _ => []

/-- The outline of a program. -/
def symbols (program : Program) : List Symbol := program.statements.flatMap symbolsOf

end Document

end Offside
