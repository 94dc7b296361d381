import Offside.Layout
import Offside.Tree
import Offside.Tree.Defect

/-!
# From tokens to syntax trees

The grammar, loosest first: statements and bindings, pipes, dot calls, application to the arguments
that follow, binary operators by precedence, prefix operators, the call marker, and primary
expressions. A function's body reaches as far to the right as it can.

Each rule of the grammar is a parser that consumes tokens from the front of a list. Where a rule
comes back to another one after it has consumed a token, it uses the rules of the level below. A
level answers every list with fewer tokens than there are levels under it, so a list of `n` tokens
is parsed at level `n + 1`.
-/

namespace Offside.Tree

open Token (Kind)

/-- Reads a result off the front of a token list. -/
abbrev Parser := StateT (List Token) (Except Defect)

/-- The first token of a list; the last token of a program is its end of file. -/
def headToken : List Token → Token
  | token :: _ => token
  | [] => default

/-- The kind of the second token, or of the end of file if there is none. -/
def secondKind : List Token → Kind
  | _ :: token :: _ => token.kind
  | tokens => (headToken tokens).kind

/-- The next token, which is not consumed. -/
def peek : Parser Token := fun tokens => .ok (headToken tokens, tokens)

/-- The kind of the next token. -/
def peekKind : Parser Kind := fun tokens => .ok ((headToken tokens).kind, tokens)

/-- Consume the next token; the end of file stays. -/
def advance : Parser Token := fun tokens =>
  let token := headToken tokens
  .ok (token, if token.kind = .endOfFile then tokens else tokens.tail)

/-- Consume the next token if it has the given kind. -/
def accept (kind : Kind) : Parser Bool := do
  if (← peekKind) = kind then
    let _ ← advance
    return true
  else return false

/-- Stop at a token that does not meet an expectation. -/
def fail {α : Type} (expectation : Expectation) : Parser α := fun tokens =>
  .error (.ofToken expectation (headToken tokens))

/-- Consume a token of the given kind. -/
def expect (kind : Kind) (expectation : Expectation) : Parser Token := do
  if (← peekKind) = kind then advance else fail expectation

/-- Consume the bracket that closes the one at `opened`. -/
def expectClosing (delimiter : Delimiter) (opened : Location) : Parser Unit := do
  let token ← peek
  if token.kind = delimiter.closingKind then
    let _ ← advance
  else if token.kind = .endOfFile then throw (.unclosed delimiter opened token)
  else fail delimiter.expectation

/-- Consume ends of statements. -/
def skipSeparators : Parser Unit := fun tokens =>
  .ok ((), tokens.dropWhile fun token => token.kind = .statementEnd)

/-- The text of a name or an operator. -/
def wordOf (token : Token) : String := token.payload.shown

/-- The tokens that an argument starts with. -/
def startsArgument : Kind → Bool
  | .identifier | .integer | .float | .string | .trueWord | .falseWord | .leftParen | .leftBracket
  | .fnWord | .not | .ifWord => true
  | _ => false

/-- How tightly an operator binds; other tokens bind not at all. -/
def precedence : Kind → Nat
  | .or => 1
  | .and => 2
  | .equal | .notEqual => 3
  | .less | .greater | .lessEqual | .greaterEqual => 4
  | .doubleDot => 5
  | .plus | .minus | .concat => 6
  | .star | .slash | .doubleSlash | .percent => 7
  | _ => 0

/-- The node of a binary operator's token. -/
def binaryNode (kind : Kind) (left right : Node) (location : Location) : Node :=
  match kind with
  | .plus => .binary .add left right location
  | .minus => .binary .subtract left right location
  | .star => .binary .multiply left right location
  | .slash => .binary .divide left right location
  | .doubleSlash => .binary .floorDivide left right location
  | .percent => .binary .modulo left right location
  | .concat => .binary .concat left right location
  | .equal => .binary .equal left right location
  | .notEqual => .binary .notEqual left right location
  | .less => .binary .less left right location
  | .greater => .binary .greater left right location
  | .lessEqual => .binary .lessEqual left right location
  | .greaterEqual => .binary .greaterEqual left right location
  | .and => .binary .and left right location
  | .or => .binary .or left right location
  | _ => .range left right location

/-- The tokens that make a binding of what precedes them. -/
def isBindingOperator : Kind → Bool
  | .declare | .assign => true
  | _ => false

/-- The operator of a token that updates a binding. -/
def updateOperator? : Kind → Option UpdateOperator
  | .plusAssign => some .append
  | .concatAssign => some .concat
  | _ => none

/-- Whether names and commas follow up to the closing parenthesis of `depth` open ones, and a
binding operator after it. -/
def bindsTuple (depth : Nat) : List Token → Bool
  | [] => false
  | token :: rest =>
    match token.kind with
    | .leftParen => bindsTuple (depth + 1) rest
    | .rightParen =>
      if depth ≤ 1 then isBindingOperator (headToken rest).kind
      else bindsTuple (depth - 1) rest
    | .identifier | .comma => bindsTuple depth rest
    | _ => false

/-- Whether a statement is a binding or an update. -/
def startsBinding (tokens : List Token) : Bool :=
  match (headToken tokens).kind with
  | .identifier =>
    isBindingOperator (secondKind tokens) || (updateOperator? (secondKind tokens)).isSome
  | .leftParen => bindsTuple 0 tokens
  | _ => false

/-- The call that a pipe makes: its left side becomes the first argument of the call on its right.
-/
def pipeNode (left right : Node) (location : Location) : Node :=
  match right with
  | .call callee arguments location => .call callee (left :: arguments) location
  | right => .call right [left] location

/-- The rules of the grammar that other rules come back to.  `commas` tells whether a comma goes on
with a list of arguments, as it does unless it separates the elements of a list or a tuple. -/
structure Level where
  pattern : Parser Pattern
  /-- The patterns after the first one in parentheses, and whether a comma follows the first one. -/
  patternTail : Parser (List Pattern × Bool)
  /-- The parameters of a function, up to its arrow. -/
  parameters : Parser (List Pattern)
  /-- Statements up to a token of the given kind. -/
  statements : (terminator : Kind) → Parser (List Node)
  statement : Parser Node
  /-- A conditional, which may hold blocks and bindings if it is a statement. -/
  conditional : (statement commas : Bool) → Parser Node
  expression : (commas : Bool) → Parser Node
  dotChain : (commas : Bool) → Parser Node
  /-- The dot calls on an expression. -/
  dotTail : (commas : Bool) → (left : Node) → Parser Node
  /-- The pipes out of an expression. -/
  pipeTail : (commas : Bool) → (left : Node) → Parser Node
  application : (commas : Bool) → Parser Node
  /-- The arguments after a function. -/
  arguments : (commas : Bool) → Parser (List Node)
  /-- The arguments with no commas before them. -/
  juxtaposed : (commas : Bool) → Parser (List Node)
  /-- The arguments with commas before them. -/
  commaArguments : Parser (List Node)
  /-- Operands and operators that bind tighter than `minimum`. -/
  binary : (commas : Bool) → (minimum : Nat) → Parser Node
  /-- The operators after a first operand. -/
  binaryTail : (commas : Bool) → (minimum : Nat) → (left : Node) → Parser Node
  unary : (commas : Bool) → Parser Node
  /-- The call markers after an expression. -/
  postfixTail : (commas : Bool) → (callee : Node) → Parser Node
  /-- The elements of a tuple after the first one. -/
  tupleTail : Parser (List Node)
  /-- The elements of a list. -/
  listElements : Parser (List Node)

/-- The level that answers no list. -/
def Level.bottom : Level where
  pattern := fail .pattern
  patternTail := fail .pattern
  parameters := fail .pattern
  statements _ := fail .expression
  statement := fail .expression
  conditional _ _ := fail .expression
  expression _ := fail .expression
  dotChain _ := fail .expression
  dotTail _ _ := fail .expression
  pipeTail _ _ := fail .expression
  application _ := fail .expression
  arguments _ := fail .expression
  juxtaposed _ := fail .expression
  commaArguments := fail .expression
  binary _ _ := fail .expression
  binaryTail _ _ _ := fail .expression
  unary _ := fail .expression
  postfixTail _ _ := fail .expression
  tupleTail := fail .expression
  listElements := fail .expression

section Rules

variable (below : Level)

/-! ## Patterns -/

/-- The patterns after the first one in parentheses; a comma may end them. -/
def parsePatternTail : Parser (List Pattern × Bool) := do
  if ← accept .comma then
    if (← peekKind) = .rightParen then return ([], true)
    else
      let pattern ← below.pattern
      let (rest, _) ← below.patternTail
      return (pattern :: rest, true)
  else return ([], false)

/-- A name, or patterns in parentheses, which are a tuple if a comma stands between them. -/
def parsePattern : Parser Pattern := do
  let token ← peek
  if ← accept .identifier then return .name (wordOf token) token.location
  else if ← accept .leftParen then
    let first ← below.pattern
    let (rest, isTuple) ← below.patternTail
    expectClosing .paren token.location
    return if isTuple then .tuple (first :: rest) token.location else first
  else fail .pattern

/-- The parameters of a function, up to its arrow. -/
def parseParameters : Parser (List Pattern) := do
  if (← peekKind) = .thinArrow then return []
  else
    let pattern ← parsePattern below
    let rest ← below.parameters
    return pattern :: rest

/-! ## Blocks and clauses -/

/-- Statements between the start and the end of a block. -/
def parseBlock : Parser (Block Node) := do
  let start ← expect .blockStart .block
  let statements ← below.statements .blockEnd
  let _ ← expect .blockEnd .endOfBlock
  return ⟨statements, start.location⟩

/-- The body after a colon: a block, or one statement on the same line. -/
def parseClauseBody : Parser (Block Node) := do
  if (← peekKind) = .blockStart then parseBlock below
  else
    let statement ← below.statement
    return ⟨[statement], statement.location⟩

/-! ## Bindings and conditionals -/

/-- A binding of a pattern, or an update of a name. -/
def parseBinding : Parser Node := do
  let tokens ← get
  let token := headToken tokens
  match token.kind, updateOperator? (secondKind tokens) with
  | .identifier, some operator =>
    let _ ← advance
    let _ ← advance
    let value ← below.expression true
    return .update (wordOf token) operator value token.location
  | _, _ =>
    let pattern ← parsePattern below
    let operator ← advance
    let value ← below.expression true
    return .binding pattern value (operator.kind == .declare) pattern.location

/-- A branch of a conditional. -/
def parseBranch (statement commas : Bool) : Parser Node := do
  let tokens ← get
  if (headToken tokens).kind = .blockStart then
    let block ← parseBlock below
    return .block block
  else if statement && (headToken tokens).kind = .ifWord then below.conditional true commas
  else if statement && startsBinding tokens then parseBinding below
  else below.application commas

/-- Consume an `else`, also one that starts the line after a branch. -/
def acceptElse : Parser Bool := do
  let tokens ← get
  if (headToken tokens).kind = .elseWord then
    let _ ← advance
    return true
  else if (headToken tokens).kind = .statementEnd && secondKind tokens = .elseWord then
    let _ ← advance
    let _ ← advance
    return true
  else return false

/-- A conditional, from its `if` on. -/
def parseConditional (statement commas : Bool) : Parser Node := do
  let start ← advance
  let condition ← below.expression commas
  let thenBranch ← do
    if statement && (← peekKind) = .colon then
      let _ ← advance
      let block ← parseClauseBody below
      pure (Node.block block)
    else
      let _ ← expect .thenWord .thenWord
      parseBranch below statement commas
  if ← acceptElse then
    let kind ← peekKind
    let elseBranch ← do
      if kind = .ifWord then below.conditional statement commas
      else if statement && kind = .colon then
        let _ ← advance
        let block ← parseClauseBody below
        pure (Node.block block)
      else parseBranch below statement commas
    return .conditional condition thenBranch elseBranch start.location
  else return .conditional condition thenBranch (.unit start.location) start.location

/-! ## Primary expressions -/

/-- The elements of a tuple after the first one; a comma may end them. -/
def parseTupleTail : Parser (List Node) := do
  if ← accept .comma then
    if (← peekKind) = .rightParen then return []
    else
      let element ← below.expression false
      let rest ← below.tupleTail
      return element :: rest
  else return []

/-- What follows an opening parenthesis at `opened`: the unit, an expression or a tuple. -/
def parseGrouped (opened : Location) : Parser Node := do
  if ← accept .rightParen then return .unit opened
  else
    let first ← below.expression false
    if (← peekKind) = .comma then
      let rest ← below.tupleTail
      expectClosing .paren opened
      return .tuple (first :: rest) opened
    else
      expectClosing .paren opened
      return first

/-- A function, from its `fn` on. -/
def parseLambda (commas : Bool) : Parser Node := do
  let start ← advance
  let parameters ← below.parameters
  let _ ← advance
  if (← peekKind) = .blockStart then
    let body ← parseBlock below
    return .lambda parameters body start.location
  else
    let result ← below.expression commas
    return .lambda parameters ⟨[result], result.location⟩ start.location

/-- The parts of a string literal, where `interpolate` parses an interpolated expression. What the
parser of one that has a defect has recorded is handed on. -/
def parseParts (interpolate : List Token → Except Defect Node) :
    List Segment → Except Defect (List (Part Node))
  | [] => .ok []
  | .text content :: rest => do
    let parts ← parseParts interpolate rest
    return .text content :: parts
  | .expression tokens _ :: rest => do
    let expression ← interpolate tokens
    let parts ← parseParts interpolate rest
    return .expression expression :: parts

/-- Literals, names, brackets, functions and conditionals. -/
def parsePrimary (interpolate : List Token → Except Defect Node) (commas : Bool) : Parser Node := do
  let token ← peek
  match token.kind, token.payload with
  | .integer, .integer value =>
    let _ ← advance
    return .integer value token.location
  | .float, .float value =>
    let _ ← advance
    return .float value token.location
  | .string, .segments segments =>
    let _ ← advance
    let parts ← (parseParts interpolate segments : Except Defect (List (Part Node)))
    return .template parts token.location
  | .trueWord, _ =>
    let _ ← advance
    return .boolean true token.location
  | .falseWord, _ =>
    let _ ← advance
    return .boolean false token.location
  | .identifier, _ =>
    let _ ← advance
    return .identifier (wordOf token) token.location
  | .leftParen, _ =>
    let _ ← advance
    parseGrouped below token.location
  | .leftBracket, _ =>
    let _ ← advance
    let elements ← below.listElements
    expectClosing .bracket token.location
    return .list elements token.location
  | .fnWord, _ => parseLambda below commas
  | .ifWord, _ => parseConditional below false commas
  | _, _ => fail .expression

/-! ## Operators and calls -/

/-- The call markers after an expression: each calls it with the arguments that follow. -/
def parsePostfixTail (commas : Bool) (callee : Node) : Parser Node := do
  if ← accept .bang then
    let arguments ← below.arguments commas
    below.postfixTail commas (.call callee arguments callee.location)
  else return callee

/-- Prefix operators before a primary expression. -/
def parseUnary (interpolate : List Token → Except Defect Node) (commas : Bool) : Parser Node := do
  let token ← peek
  if ← accept .minus then
    let operand ← below.unary commas
    return .unary .negate operand token.location
  else if ← accept .not then
    let operand ← below.unary commas
    return .unary .not operand token.location
  else
    let primary ← parsePrimary below interpolate commas
    parsePostfixTail below commas primary

/-- The operators that bind tighter than `minimum` after a first operand; they associate to the
left. -/
def parseBinaryTail (commas : Bool) (minimum : Nat) (left : Node) : Parser Node := do
  let kind ← peekKind
  if precedence kind ≤ minimum then return left
  else
    let operator ← advance
    let right ← below.binary commas (precedence kind)
    below.binaryTail commas minimum (binaryNode kind left right operator.location)

/-- Operands and operators that bind tighter than `minimum`. -/
def parseBinary (interpolate : List Token → Except Defect Node) (commas : Bool) (minimum : Nat) :
    Parser Node := do
  let left ← parseUnary below interpolate commas
  parseBinaryTail below commas minimum left

/-- The arguments with no commas before them. -/
def parseJuxtaposed (interpolate : List Token → Except Defect Node) (commas : Bool) :
    Parser (List Node) := do
  if startsArgument (← peekKind) then
    let argument ← parseBinary below interpolate commas 0
    let rest ← below.juxtaposed commas
    return argument :: rest
  else return []

/-- The arguments with commas before them. -/
def parseCommaArguments : Parser (List Node) := do
  if ← accept .comma then
    let argument ← below.application false
    let rest ← below.commaArguments
    return argument :: rest
  else return []

/-- The arguments after a function. A comma goes on with them if it may and if there is one before
it. -/
def parseArguments (interpolate : List Token → Except Defect Node) (commas : Bool) :
    Parser (List Node) := do
  let arguments ← parseJuxtaposed below interpolate commas
  if commas && !arguments.isEmpty then
    let rest ← parseCommaArguments below
    return arguments ++ rest
  else return arguments

/-- An expression applied to the arguments that follow it. -/
def parseApplication (interpolate : List Token → Except Defect Node) (commas : Bool) :
    Parser Node := do
  let callee ← parseBinary below interpolate commas 0
  let arguments ← parseArguments below interpolate commas
  return if arguments.isEmpty then callee else .call callee arguments callee.location

/-- The dot calls on an expression, which becomes their first argument. -/
def parseDotTail (commas : Bool) (left : Node) : Parser Node := do
  if ← accept .dot then
    let name ← expect .identifier .functionName
    let _ ← accept .bang
    let arguments ← below.arguments commas
    below.dotTail commas
      (.call (.identifier (wordOf name) name.location) (left :: arguments) name.location)
  else return left

/-- An application and the dot calls on it. -/
def parseDotChain (interpolate : List Token → Except Defect Node) (commas : Bool) :
    Parser Node := do
  let left ← parseApplication below interpolate commas
  parseDotTail below commas left

/-- The pipes out of an expression. -/
def parsePipeTail (commas : Bool) (left : Node) : Parser Node := do
  let token ← peek
  if ← accept .pipe then
    let right ← below.dotChain commas
    below.pipeTail commas (pipeNode left right token.location)
  else return left

/-- A full expression. -/
def parseExpression (interpolate : List Token → Except Defect Node) (commas : Bool) :
    Parser Node := do
  let left ← parseDotChain below interpolate commas
  parsePipeTail below commas left

/-- The elements of a list; a comma may end them. -/
def parseListElements (interpolate : List Token → Except Defect Node) : Parser (List Node) := do
  let kind ← peekKind
  if kind = .rightBracket || kind = .endOfFile then return []
  else
    let element ← parseExpression below interpolate false
    if ← accept .comma then
      let rest ← below.listElements
      return element :: rest
    else return [element]

/-! ## Statements -/

/-- A loop over the elements of a value, from its `for` on. -/
def parseFor : Parser Node := do
  let start ← advance
  let pattern ← below.pattern
  let _ ← expect .leftArrow .loopArrow
  let iterable ← below.expression true
  let _ ← expect .colon .iterableColon
  let body ← parseClauseBody below
  return .forLoop pattern iterable body start.location

/-- A loop under a condition, from its `while` on. -/
def parseWhile : Parser Node := do
  let start ← advance
  let condition ← below.expression true
  let _ ← expect .colon .conditionColon
  let body ← parseClauseBody below
  return .whileLoop condition body start.location

/-- One statement. -/
def parseStatement (interpolate : List Token → Except Defect Node) : Parser Node := do
  let tokens ← get
  match (headToken tokens).kind with
  | .forWord => parseFor below
  | .whileWord => parseWhile below
  | .ifWord =>
    let conditional ← parseConditional below true true
    let left ← parseDotTail below true conditional
    parsePipeTail below true left
  | _ => if startsBinding tokens then parseBinding below else parseExpression below interpolate true

/-- Statements up to a token of the given kind, with ends of statements between them. -/
def parseStatements (interpolate : List Token → Except Defect Node) (terminator : Kind) :
    Parser (List Node) := do
  skipSeparators
  let kind ← peekKind
  if kind = terminator || kind = .endOfFile then return []
  else
    let statement ← parseStatement below interpolate
    let kind ← peekKind
    if kind = terminator || kind = .endOfFile then return [statement]
    else
      let _ ← expect .statementEnd .endOfStatement
      let rest ← below.statements terminator
      return statement :: rest

end Rules

/-- The level above a level. -/
def Level.next (interpolate : List Token → Except Defect Node) (below : Level) : Level where
  pattern := parsePattern below
  patternTail := parsePatternTail below
  parameters := parseParameters below
  statements := parseStatements below interpolate
  statement := parseStatement below interpolate
  conditional := parseConditional below
  expression := parseExpression below interpolate
  dotChain := parseDotChain below interpolate
  dotTail := parseDotTail below
  pipeTail := parsePipeTail below
  application := parseApplication below interpolate
  arguments := parseArguments below interpolate
  juxtaposed := parseJuxtaposed below interpolate
  commaArguments := parseCommaArguments below
  binary := parseBinary below interpolate
  binaryTail := parseBinaryTail below
  unary := parseUnary below interpolate
  postfixTail := parsePostfixTail below
  tupleTail := parseTupleTail below
  listElements := parseListElements below interpolate

/-- The level with `count` levels under it. -/
def Level.ofNat (interpolate : List Token → Except Defect Node) (count : Nat) : Level :=
  Nat.repeat (Level.next interpolate) count Level.bottom

/-- Run a rule of the grammar on a list of tokens, with enough levels for it. -/
def runRule {α : Type} (interpolate : List Token → Except Defect Node) (rule : Level → Parser α)
    (tokens : List Token) : Except Defect (α × List Token) :=
  (rule (Level.ofNat interpolate (tokens.length + 1))) tokens

/-- An interpolated expression in which interpolations nest less than `depth` deep. -/
def parseInterpolation : (depth : Nat) → List Token → Except Defect Node
  | 0, tokens => .error (.ofToken .expression (headToken tokens))
  | depth + 1, tokens =>
    match Layout.normalize tokens with
    | .error fault => .error (.layout fault)
    | .ok tokens => do
      let rule (level : Level) : Parser Node := do
        let node ← level.expression true
        let _ ← expect .endOfFile .closingBrace
        return node
      let (node, _) ← runRule (parseInterpolation depth) rule tokens
      return node

/-- The program of a list of tokens with explicit block structure. -/
def parse (tokens : List Token) : Except Defect Program := do
  let rule (level : Level) : Parser (List Node) := do
    let statements ← level.statements .endOfFile
    let _ ← expect .endOfFile .endOfFile
    return statements
  let (statements, _) ← runRule (parseInterpolation (Token.depthOfTokens tokens)) rule tokens
  return ⟨statements, (headToken tokens).location⟩

end Offside.Tree
