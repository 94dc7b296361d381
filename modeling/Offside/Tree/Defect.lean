import Offside.Fault
import Offside.Token.Printer

/-!
# What is wrong with a token sequence

Reading a syntax tree stops at the first token that does not fit. A parser tells why it stops, and
it also records remarks, from which diagnostics are made.
-/

namespace Offside.Tree

/-- What the grammar asks for at a token. -/
inductive Expectation where
  | expression
  | endOfStatement
  | block
  | endOfBlock
  | endOfFile
  | loopArrow
  | iterableColon
  | conditionColon
  | thenWord
  | pattern
  | functionName
  | closingParen
  | closingBracket
  | closingBrace
  deriving DecidableEq

namespace Expectation

/-- The complaint that an expectation is not met. -/
def message : Expectation → String
  | expression => "Expected an expression"
  | endOfStatement => "Expected end of statement"
  | block => "Expected an indented block"
  | endOfBlock => "Expected end of block"
  | endOfFile => "Expected end of file"
  | loopArrow => "Expected '<-' after loop pattern"
  | iterableColon => "Expected ':' after loop iterable"
  | conditionColon => "Expected ':' after loop condition"
  | thenWord => "Expected 'then' after condition"
  | pattern => "Expected a name or tuple pattern"
  | functionName => "Expected a function name after '.'"
  | closingParen => "Expected ')' to close '('"
  | closingBracket => "Expected ']' to close '['"
  | closingBrace => "Expected '\x7d' after interpolated expression"

/-- What is expected, in short. -/
def text : Expectation → String
  | expression => "expression"
  | endOfStatement => "end of statement"
  | block => "indented block"
  | endOfBlock => "end of block"
  | endOfFile => "end of file"
  | loopArrow => "'<-'"
  | iterableColon => "':'"
  | conditionColon => "':'"
  | thenWord => "'then'"
  | pattern => "pattern"
  | functionName => "identifier"
  | closingParen => "')'"
  | closingBracket => "']'"
  | closingBrace => "'\x7d'"

end Expectation

/-- The brackets that enclose expressions. -/
inductive Delimiter where
  | paren
  | bracket
  deriving DecidableEq

namespace Delimiter

/-- The opening bracket. -/
def opening : Delimiter → String
  | paren => "("
  | bracket => "["

/-- The closing bracket. -/
def closing : Delimiter → String
  | paren => ")"
  | bracket => "]"

/-- The kind of the closing bracket's token. -/
def closingKind : Delimiter → Token.Kind
  | paren => .rightParen
  | bracket => .rightBracket

/-- The expectation of the closing bracket. -/
def expectation : Delimiter → Expectation
  | paren => .closingParen
  | bracket => .closingBracket

end Delimiter

/-- Why a token sequence has no syntax tree. -/
inductive Flaw where
  /-- The layout of an interpolated expression is at fault. -/
  | layout (fault : Fault)
  /-- A token stands for text that forms no token. -/
  | invalid (token : Token)
  /-- A token stands where something else is expected. -/
  | unexpected (expectation : Expectation) (token : Token)
  /-- A bracket opened at `opened` is not closed before the end of file. -/
  | unclosed (delimiter : Delimiter) (opened : Location) (endOfFile : Token)

/-- What a parser records for a diagnostic. -/
inductive Remark where
  /-- Text forms no token. -/
  | invalid (message : String) (location : Location)
  /-- Something else is found than what is expected. -/
  | unexpected (expected found : String) (length : Nat) (location : Location)
  /-- A bracket opened at `opened` is not closed. -/
  | unclosed (delimiter : String) (opened location : Location)

/-- What comes of a parser that stops. -/
structure Defect where
  /-- Why it stops. -/
  flaw : Flaw
  /-- What it has recorded, after the parsers of the expressions in string literals. -/
  recorded : List Remark

namespace Defect

/-- A parser stops at the layout of an interpolated expression, and records nothing. -/
def layout (fault : Fault) : Defect := ⟨.layout fault, []⟩

/-- A parser stops at a token that stands for text that forms no token. -/
def invalid (token : Token) : Defect :=
  ⟨.invalid token, [.invalid token.payload.shown token.location]⟩

/-- A parser stops at a token that does not meet an expectation. -/
def ofToken (expectation : Expectation) (token : Token) : Defect :=
  if token.kind = .invalid then invalid token
  else
    let length := if token.kind = .identifier then token.lexeme.length else 1
    ⟨.unexpected expectation token,
      [.unexpected expectation.text token.lexeme length token.location]⟩

/-- A parser stops at the end of file because a bracket is not closed. -/
def unclosed (delimiter : Delimiter) (opened : Location) (token : Token) : Defect :=
  ⟨.unclosed delimiter opened token, [.unclosed delimiter.opening opened token.location]⟩

/-- A defect as a fault that quotes its line of `source`. -/
def fault (source : String) (defect : Defect) : Fault :=
  match defect.flaw with
  | .layout fault => fault
  | .invalid token =>
    (Fault.atLocation .lexical token.payload.shown token.location).withSource source
  | .unexpected expectation token =>
    (Fault.atLocation (.parse (some expectation.text) (some token.lexeme)) expectation.message
      token.location).withSource source
  | .unclosed delimiter _ token =>
    (Fault.atLocation (.parse (some ("'" ++ delimiter.closing ++ "'")) (some token.lexeme))
      ("Unclosed delimiter '" ++ delimiter.opening ++ "'") token.location).withSource source

end Defect

end Offside.Tree
