import Offside.Location
import Offside.Text.Lines

/-!
# Faults of a program

A fault is what stops a program: text that is not well formed, or an operation that does not apply.
It has a kind, a message, usually a location, and the line of source text to quote.
-/

namespace Offside

/-- The kinds of faults, with what only one kind carries. -/
inductive Fault.Kind where
  /-- A fault of no particular kind. -/
  | general
  /-- Text that forms no token. -/
  | lexical
  /-- Indentation that fits no block. -/
  | layout
  /-- A token out of place, with what was expected and what was found. -/
  | parse (expected found : Option String)
  /-- A name without a binding, with the names in reach. -/
  | unboundName (name : String) (candidates : List String)
  /-- A value that is no function, applied to arguments. -/
  | notCallable
  /-- A value of the wrong type. -/
  | typeMismatch
  /-- A value that does not have the shape of a pattern. -/
  | patternMismatch
  /-- A division by zero. -/
  | divisionByZero
  /-- Too many steps, or calls nested too deeply. -/
  | limitExceeded
  deriving DecidableEq

/-- The name under which a fault is reported. -/
def Fault.Kind.name : Fault.Kind → String
  | .general => "Error"
  | .lexical => "LexError"
  | .layout => "IndentError"
  | .parse _ _ => "ParseError"
  | .unboundName _ _ => "UnboundName"
  | .notCallable => "NotCallable"
  | .typeMismatch => "TypeMismatch"
  | .patternMismatch => "PatternMismatch"
  | .divisionByZero => "DivisionByZero"
  | .limitExceeded => "StepLimitExceeded"

/-- What stops a program. -/
structure Fault where
  /-- The kind of the fault. -/
  kind : Fault.Kind
  /-- What is wrong. -/
  message : String
  /-- Where it is wrong. -/
  location : Option Location
  /-- The line of source text to quote. -/
  sourceLine : Option String
  deriving DecidableEq

namespace Fault

/-- A fault at a location, with no line to quote yet. -/
def atLocation (kind : Kind) (message : String) (location : Location) : Fault :=
  ⟨kind, message, some location, none⟩

/-- The message about a name without a binding. -/
def unboundMessage (name : String) : String := "unbound name '" ++ name ++ "'"

/-- The fault of a name without a binding. -/
def unbound (name : String) (candidates : List String) (location : Option Location) : Fault :=
  ⟨.unboundName name candidates, unboundMessage name, location, none⟩

/-- The fault with the line of `source` to quote, unless it has one already. -/
def withSource (fault : Fault) (source : String) : Fault :=
  match fault.sourceLine, fault.location with
  | none, some location => { fault with sourceLine := Text.line? source location.line }
  | _, _ => fault

/-- The quoted line and a caret below the column of the fault. -/
def quotation (line : String) (location : Location) : String :=
  "\n    " ++ line ++ "\n" ++ "".pushn ' ' (3 + location.column).toNat ++ "^"

/-- The text of a fault: location, message and, if there is a line to quote, the line. -/
def text (fault : Fault) : String :=
  let line := fault.sourceLine.getD ""
  match fault.location with
  | none => if line.isEmpty then fault.message else fault.message ++ " "
  | some location =>
    "[" ++ location.text ++ "] " ++ fault.message ++
      (if line.isEmpty then "" else quotation line location)

end Fault

end Offside
