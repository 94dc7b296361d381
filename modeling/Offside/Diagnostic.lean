import Offside.Span
import Offside.Text.Lines

/-!
# Diagnostics

A diagnostic is a message with a code, labels on the source text, notes and hints. It is rendered
with the labelled lines and marks under them, with or without colours.
-/

namespace Offside

/-- How serious a diagnostic is. -/
inductive Severity where
  | error
  | note
  | help
  deriving DecidableEq

/-- The word for a severity. -/
def Severity.text : Severity → String
  | error => "error"
  | note => "note"
  | help => "help"

/-- A mark on the source text; the primary label shows where the trouble is. -/
structure Label where
  /-- The marked text. -/
  span : Span
  /-- What stands beside the mark. -/
  message : String
  /-- Whether the mark shows where the trouble is. -/
  isPrimary : Bool
  deriving DecidableEq

/-- A message about source text. -/
structure Diagnostic where
  /-- The code of the message, or nothing. -/
  code : String
  /-- How serious the message is. -/
  severity : Severity
  /-- The message. -/
  message : String
  /-- The marks on the source text. -/
  labels : List Label
  /-- Remarks below the source text. -/
  notes : List String
  /-- Hints below the source text. -/
  helps : List String
  deriving DecidableEq

namespace Diagnostic

/-- A diagnostic without labels. -/
def plain (code : String) (severity : Severity) (message : String) : Diagnostic :=
  ⟨code, severity, message, [], [], []⟩

/-- The diagnostic with one more label. -/
def label (diagnostic : Diagnostic) (span : Span) (message : String) (isPrimary : Bool) :
    Diagnostic :=
  { diagnostic with labels := diagnostic.labels ++ [⟨span, message, isPrimary⟩] }

/-- The diagnostic with one primary label, in place of those before. -/
def primaryLabel (diagnostic : Diagnostic) (span : Span) (message : String) : Diagnostic :=
  { diagnostic with
    labels := ⟨span, message, true⟩ :: diagnostic.labels.filter fun label => !label.isPrimary }

/-- The diagnostic with one more note. -/
def note (diagnostic : Diagnostic) (message : String) : Diagnostic :=
  { diagnostic with notes := diagnostic.notes ++ [message] }

/-- The diagnostic with one more hint. -/
def help (diagnostic : Diagnostic) (message : String) : Diagnostic :=
  { diagnostic with helps := diagnostic.helps ++ [message] }

/-- An error, with an unlabelled mark if a span is given. -/
def error (code message : String) (span : Option Span) : Diagnostic :=
  match span with
  | none => plain code .error message
  | some span => (plain code .error message).label span "" true

/-- The span of the first primary label, or of the first label. -/
def primarySpan? (diagnostic : Diagnostic) : Option Span :=
  match diagnostic.labels.find? (·.isPrimary) with
  | some label => some label.span
  | none => diagnostic.labels.head?.map (·.span)

/-- The terminal codes that switch colours on and off. -/
structure Palette where
  reset : String
  bold : String
  blue : String
  green : String
  /-- The colour of a severity. -/
  level : Severity → String

/-- The codes of a terminal with colours. -/
def Palette.colored : Palette where
  reset := "\x1b[0m"
  bold := "\x1b[1m"
  blue := "\x1b[94m"
  green := "\x1b[92m"
  level
    | .error => "\x1b[91m"
    | .note => "\x1b[96m"
    | .help => "\x1b[92m"

/-- No codes at all. -/
def Palette.blank : Palette := ⟨"", "", "", "", fun _ => ""⟩

/-- A number at the right of three columns. -/
def lineNumber (number : Int) : String :=
  let digits := toString number
  "".pushn ' ' (3 - digits.length) ++ digits

/-- The first line of a diagnostic. -/
def header (palette : Palette) (diagnostic : Diagnostic) : String :=
  palette.level diagnostic.severity ++ palette.bold ++ diagnostic.severity.text ++
    (if diagnostic.code.isEmpty then "" else "[" ++ diagnostic.code ++ "]") ++ palette.reset ++
    ": " ++ palette.bold ++ diagnostic.message ++ palette.reset

/-- A bar at the left of a line. -/
def bar (palette : Palette) : String := "   " ++ palette.blue ++ "|" ++ palette.reset

/-- The mark of a label, under its line. -/
def underline (palette : Palette) (severity : Severity) (label : Label) : String :=
  let mark := if label.isPrimary then '^' else '-'
  let color := if label.isPrimary then palette.level severity else palette.blue
  bar palette ++ " " ++ "".pushn ' ' (label.span.startColumn - 1).toNat ++ color ++
    "".pushn mark label.span.length.toNat ++ palette.reset ++
    (if label.message.isEmpty then "" else " " ++ color ++ label.message ++ palette.reset)

/-- A line of source text with the marks under it. -/
def labelledLine (palette : Palette) (source : String) (diagnostic : Diagnostic) (number : Int) :
    List String :=
  match Text.line? source number with
  | none => []
  | some line =>
    (palette.blue ++ lineNumber number ++ " |" ++ palette.reset ++ " " ++ line) ::
      (diagnostic.labels.filter (·.span.startLine == number)).map
        (underline palette diagnostic.severity)

/-- The numbers of the labelled lines in increasing order, each once. -/
def labelledNumbers (diagnostic : Diagnostic) : List Int :=
  (diagnostic.labels.map (·.span.startLine)).eraseDups.mergeSort

/-- The labelled lines between two bars, if there is any source text to show. -/
def excerpt (palette : Palette) (source : String) (diagnostic : Diagnostic) : List String :=
  if diagnostic.labels.isEmpty || (Text.lines source).isEmpty then []
  else
    bar palette :: diagnostic.labelledNumbers.flatMap (labelledLine palette source diagnostic) ++
      [bar palette]

/-- A diagnostic about `source` as text. -/
def render (palette : Palette) (source : String) (diagnostic : Diagnostic) : String :=
  let place :=
    match diagnostic.primarySpan? with
    | none => []
    | some span => ["  " ++ palette.blue ++ "-->" ++ palette.reset ++ " " ++ span.text]
  let remark (word text : String) : String :=
    "   " ++ palette.blue ++ "=" ++ palette.reset ++ " " ++ word ++ palette.reset ++ " " ++ text
  String.intercalate "\n"
    (header palette diagnostic :: place ++ excerpt palette source diagnostic ++
      diagnostic.notes.map (remark (palette.bold ++ "note:")) ++
      diagnostic.helps.map (remark (palette.green ++ "help:")))

/-- Whether one of several diagnostics is an error. -/
def anyError (diagnostics : List Diagnostic) : Bool :=
  diagnostics.any (·.severity == .error)

/-- Several diagnostics about `source` as text. -/
def renderAll (palette : Palette) (source : String) (diagnostics : List Diagnostic) : String :=
  String.intercalate "\n\n" (diagnostics.map (render palette source))

end Diagnostic

end Offside
