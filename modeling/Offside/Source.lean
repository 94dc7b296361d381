import Offside.Diagnostic.Report
import Offside.Overflow
import Offside.Token.Scan
import Offside.Tree.Parser

/-!
# Source texts

From a source text to its program: scanning, layout and parsing, and what can go wrong in each.
-/

namespace Offside

/-- Why a source text has no program. -/
inductive Rejection where
  /-- An integer literal has too many digits. -/
  | overflow (overflow : Overflow)
  /-- Lines are indented wrongly. -/
  | layout (fault : Fault)
  /-- The tokens form no program. -/
  | defect (defect : Tree.Defect)

namespace Source

/-- The tokens of a source text with explicit block structure. -/
def tokens (source : String) (file : Option String) : Except Rejection (List Token) :=
  match Token.scan source file with
  | .error overflow => .error (.overflow overflow)
  | .ok tokens =>
    match Layout.normalize tokens with
    | .error fault => .error (.layout fault)
    | .ok tokens => .ok tokens

/-- The program of a source text. -/
def program (source : String) (file : Option String) : Except Rejection Program := do
  let tokens ← tokens source file
  match Tree.parse tokens with
  | .error defect => .error (.defect defect)
  | .ok program => .ok program

end Source

/-- A rejection as a fault that quotes its line, unless a number is out of bounds. -/
def Rejection.fault (source : String) : Rejection → Except Overflow Fault
  | .overflow refused => .error refused
  | .layout wrong => .ok (wrong.withSource source)
  | .defect wrong => .ok ((wrong.fault source).withSource source)

end Offside
