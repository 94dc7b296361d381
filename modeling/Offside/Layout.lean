import Offside.Fault
import Offside.Token.Printer

/-!
# Layout

Layout turns line breaks and columns into block structure. A line that ends in a block opener opens
a block, whose reference column is that of the next line. A line at the reference column starts a
statement, a line to the left of it closes blocks, and a line to the right of it is allowed only as
a continuation. Within brackets line breaks do not count.

The rules are a transducer: each token moves the state on and writes some tokens.
-/

namespace Offside.Layout

open Token (Kind)

/-- The tokens that open a block when they end a line. -/
def opensBlock : Kind → Bool
  | .colon | .thinArrow | .thenWord | .elseWord => true
  | _ => false

/-- The tokens that continue a statement when they start a line. -/
def continuesLine : Kind → Bool
  | .dot => true
  | kind => kind.isBinaryOperator

/-- The tokens that allow the next line to be indented further when they end a line. -/
def expectsMore : Kind → Bool
  | .dot | .comma | .declare | .assign | .plusAssign | .concatAssign | .leftArrow | .bang
  | .not => true
  | kind => kind.isBinaryOperator

/-- What is wrong with the layout of a line. -/
inductive Defect where
  /-- No indented block follows a block opener. -/
  | missingBlock (opener : Token)
  /-- A line is indented further for no reason. -/
  | unexpectedIndent
  /-- A line stands at the column of no open block. -/
  | inconsistentDedent

/-- The report of a defect. -/
def Defect.message : Defect → String
  | missingBlock opener => "expected an indented block after '" ++ opener.payload.shown ++ "'"
  | unexpectedIndent => "unexpected indent"
  | inconsistentDedent => "inconsistent dedent"

/-- A defect as a fault at a location. -/
def Defect.fault (defect : Defect) (location : Location) : Fault :=
  Fault.atLocation .layout defect.message location

/-- What layout remembers between two tokens. -/
structure State where
  /-- Reference columns of the open blocks, innermost first. -/
  columns : List Int
  /-- Number of open brackets. -/
  depth : Nat
  /-- The block opener that ended the last line. -/
  opener : Option Token
  /-- The last token read, line breaks apart. -/
  previous : Option Token
  /-- The kind of the last token written. -/
  written : Option Kind
  /-- Whether a line break was the last token read. -/
  atLineStart : Bool

/-- The state before the first token. -/
def State.initial : State := ⟨[], 0, none, none, none, true⟩

/-- Whether the last token read satisfies `p`. -/
def State.follows (state : State) (p : Kind → Bool) : Bool :=
  match state.previous with
  | some token => p token.kind
  | none => false

/-- Remember the last of the tokens written. -/
def State.wrote (state : State) (tokens : List Token) : State :=
  match tokens.getLast? with
  | some token => { state with written := some token.kind }
  | none => state

/-- The end of a statement, unless nothing precedes it that it could end. -/
def separator (written : Option Kind) (location : Location) : List Token :=
  match written with
  | none | some .statementEnd | some .blockStart => []
  | some _ => [.inserted .statementEnd location]

/-- Close the blocks to the right of a column, all but the outermost: the number of blocks closed,
and the reference columns of those that stay open. -/
def close (column : Int) : List Int → Nat × List Int
  | reference :: next :: outer =>
    if column < reference then
      let (count, columns) := close column (next :: outer)
      (count + 1, columns)
    else (0, reference :: next :: outer)
  | columns => (0, columns)

/-- The ends of `count` blocks. -/
def blockEnds (count : Nat) (location : Location) : List Token :=
  List.replicate count (.inserted .blockEnd location)

/-- Apply the rules of indentation to the first token of a line: the tokens to write before it, and
the state after them. -/
def startLine (state : State) (token : Token) : Except Fault (List Token × State) :=
  let column := token.location.column
  match state.columns, state.opener with
  | [], _ => .ok ([], { state with columns := [column] })
  | reference :: outer, some opener =>
    if column ≤ reference then .error ((Defect.missingBlock opener).fault token.location)
    else
      let written := [.inserted .blockStart token.location]
      .ok (written, { state with
        columns := column :: reference :: outer
        opener := none }.wrote written)
  | reference :: outer, none =>
    let continuation := continuesLine token.kind
    if reference < column then
      if continuation || state.follows expectsMore then .ok ([], state)
      else .error (Defect.unexpectedIndent.fault token.location)
    else
      let (count, columns) := close column (reference :: outer)
      let ends := blockEnds count token.location
      let closed := { state with columns := columns }.wrote ends
      if columns.head? ≠ some column then
        if continuation then .ok (ends, closed)
        else .error (Defect.inconsistentDedent.fault token.location)
      else if !continuation || token.kind == .minus then
        let ends' := separator closed.written token.location
        .ok (ends ++ ends', closed.wrote ends')
      else .ok (ends, closed)

/-- The number of open brackets after a token. -/
def depthAfter (depth : Nat) (kind : Kind) : Nat :=
  if kind.isOpening then depth + 1 else if kind.isClosing then depth - 1 else depth

/-- Remember a line break. -/
def State.endLine (state : State) : State :=
  let opens := state.depth == 0 && state.follows opensBlock && !state.atLineStart
  { state with
    opener := if opens then state.previous else state.opener
    atLineStart := true }

/-- Write a token, or the separator that a semicolon outside brackets stands for. -/
def State.accept (state : State) (token : Token) : List Token × State :=
  if token.kind == .semicolon && state.depth == 0 then
    let written := separator state.written token.location
    (written, { state with previous := some token }.wrote written)
  else
    ([token], { state with
      depth := depthAfter state.depth token.kind
      previous := some token
      written := some token.kind })

/-- Read one token other than the end of file. -/
def step (state : State) (token : Token) : Except Fault (List Token × State) :=
  if token.kind = .newline then .ok ([], state.endLine)
  else do
    let (before, state) ←
      if state.atLineStart && state.depth == 0 then
        startLine { state with atLineStart := false } token
      else .ok ([], { state with atLineStart := false })
    let (after, state) := state.accept token
    return (before ++ after, state)

/-- Close what is open at the end of file. -/
def finish (state : State) (endOfFile : Token) : Except Fault (List Token) :=
  let opener :=
    match state.opener with
    | some opener => some opener
    | none => if state.depth == 0 && state.follows opensBlock then state.previous else none
  match opener with
  | some opener => .error ((Defect.missingBlock opener).fault endOfFile.location)
  | none => .ok (blockEnds (state.columns.length - 1) endOfFile.location ++ [endOfFile])

/-- Run the rules over the tokens up to the first end of file. If there is none, one is put at
`last`, the location of the last token. -/
def run (state : State) (last : Location) : List Token → Except Fault (List Token)
  | [] => finish state (.inserted .endOfFile last)
  | token :: rest =>
    if token.kind = .endOfFile then finish state token
    else do
      let (written, state) ← step state token
      let later ← run state token.location rest
      return written ++ later

/-- The tokens with explicit block structure. -/
def normalize (tokens : List Token) : Except Fault (List Token) :=
  run .initial (.start none) tokens

end Offside.Layout
