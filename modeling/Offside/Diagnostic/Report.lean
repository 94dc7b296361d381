import Offside.Diagnostic
import Offside.Diagnostic.Similar
import Offside.Fault
import Offside.Tree.Defect

/-!
# Diagnostics of faults

Every fault has a diagnostic with a code of its kind. What a parser records becomes richer ones,
which also show where an unclosed bracket was opened.
-/

namespace Offside.Diagnostic

/-- A hint at one or several similar names. -/
def suggestion? : List String → Option String
  | [] => none
  | [name] => some ("did you mean '" ++ name ++ "'?")
  | names =>
    let quoted := names.map fun name => "'" ++ name ++ "'"
    some ("did you mean one of: " ++ String.intercalate ", " quoted ++ "?")

/-- A name without a binding, with suggestions. -/
def unboundName (name : String) (span : Span) (candidates : List String) : Diagnostic :=
  let diagnostic := (error "E0102" (Fault.unboundMessage name) (some span)).primaryLabel span
    "not found in this scope"
  match suggestion? (similarNames name candidates 2 3) with
  | none => diagnostic
  | some hint => diagnostic.help hint

/-- A token out of place. -/
def unexpectedToken (expected found : String) (span : Span) : Diagnostic :=
  error "E0201" ("expected " ++ expected ++ ", found '" ++ found ++ "'") (some span)

/-- The bracket that closes an opening one. -/
def closingFor (delimiter : String) : String :=
  if delimiter = "(" then ")"
  else if delimiter = "[" then "]"
  else if delimiter = "\x7b" then "\x7d"
  else delimiter

/-- A bracket that is not closed. -/
def unclosedDelimiter (delimiter : String) (opened span : Span) : Diagnostic :=
  ((error "E0202" ("unclosed delimiter '" ++ delimiter ++ "'") (some span)).label opened
    ("unclosed '" ++ delimiter ++ "' starts here") false).help
    ("add matching closing '" ++ closingFor delimiter ++ "'")

/-- The code of a fault of layout, by its message. -/
def layoutCode (message : String) : String :=
  if "unexpected indent".toList.isPrefixOf message.toList then "E0209"
  else if "inconsistent dedent".toList.isPrefixOf message.toList then "E0210"
  else "E0211"

/-- The code of a fault. -/
def codeOf (fault : Fault) : String :=
  match fault.kind with
  | .general => "E0101"
  | .lexical => "E0208"
  | .layout => layoutCode fault.message
  | .parse _ _ => "E0201"
  | .unboundName _ _ => "E0102"
  | .notCallable => "E0107"
  | .typeMismatch => "E0101"
  | .patternMismatch => "E0113"
  | .divisionByZero => "E0114"
  | .limitExceeded => "E0115"

/-- The diagnostic of a fault in the text named `file`. -/
def ofFault (file : String) (fault : Fault) : Diagnostic :=
  match fault.kind, fault.location with
  | .unboundName name candidates, some location =>
    unboundName name (.ofLocation location name.length file) candidates
  | kind, location =>
    let diagnostic := error (codeOf fault) fault.message (location.map (Span.ofLocation · 1 file))
    match kind with
    | .patternMismatch =>
      diagnostic.note "tuple patterns must have exactly as many elements as the value"
    | .notCallable => diagnostic.note "only functions and built-ins can be applied to arguments"
    | _ => diagnostic

/-- The diagnostic that a parser of the text named `file` records. -/
def ofRemark (file : String) : Tree.Remark → Diagnostic
  | .invalid message location => error "E0208" message (some (.ofLocation location 1 file))
  | .unexpected expected found length location =>
    unexpectedToken expected found (.ofLocation location length file)
  | .unclosed delimiter opened location =>
    unclosedDelimiter delimiter (.ofLocation opened 1 file) (.ofLocation location 1 file)

/-- The diagnostics that a parser has recorded: none if there is no source text to show. -/
def ofDefect (source file : String) (defect : Tree.Defect) : List Diagnostic :=
  if source.isEmpty then [] else defect.recorded.map (ofRemark file)

end Offside.Diagnostic
