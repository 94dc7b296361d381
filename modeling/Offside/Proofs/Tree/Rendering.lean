import Offside.Proofs.Tree.Shape
import Offside.Token

/-!
# The written form of a syntax tree

A tree is written as the tokens that a parser reads: compound parts of an expression stand in
parentheses, a call without arguments has a call marker, and blocks are delimited by layout tokens.
Tokens take the places of the nodes that they belong to.
-/

namespace Offside

/-- The spelling of a kind of token that is always spelled the same. -/
def Token.Kind.spelling (kind : Token.Kind) : String :=
  (((Token.operators ++ Token.keywords).find? (·.2 == kind)).map (·.1)).getD ""

/-- An operator, a punctuation mark or a reserved word. -/
def Token.fixed (kind : Token.Kind) (location : Location) : Token :=
  ⟨kind, .text kind.spelling, location⟩

@[simp]
theorem Token.fixed_kind (kind : Token.Kind) (location : Location) :
    (Token.fixed kind location).kind = kind := rfl

@[simp]
theorem Token.fixed_location (kind : Token.Kind) (location : Location) :
    (Token.fixed kind location).location = location := rfl

@[simp]
theorem Token.inserted_kind (kind : Token.Kind) (location : Location) :
    (Token.inserted kind location).kind = kind := rfl

@[simp]
theorem Token.inserted_location (kind : Token.Kind) (location : Location) :
    (Token.inserted kind location).location = location := rfl

/-- The kind of a binary operator's token. -/
def BinaryOperator.kind : BinaryOperator → Token.Kind
  | add => .plus
  | subtract => .minus
  | multiply => .star
  | divide => .slash
  | floorDivide => .doubleSlash
  | modulo => .percent
  | concat => .concat
  | equal => .equal
  | notEqual => .notEqual
  | less => .less
  | greater => .greater
  | lessEqual => .lessEqual
  | greaterEqual => .greaterEqual
  | and => .and
  | or => .or

/-- The kind of a prefix operator's token. -/
def UnaryOperator.kind : UnaryOperator → Token.Kind
  | negate => .minus
  | not => .not

/-- The kind of an update's token. -/
def UpdateOperator.kind : UpdateOperator → Token.Kind
  | append => .plusAssign
  | concat => .concatAssign

/-- The kind of a binding's token. -/
def bindingKind (declares : Bool) : Token.Kind := if declares then .declare else .assign

namespace Rendering

/-- Token lists with a comma before each. -/
def commaTail (location : Location) (items : List (List Token)) : List Token :=
  items.flatMap (.fixed .comma location :: ·)

@[simp]
theorem commaTail_nil (location : Location) : commaTail location [] = [] := rfl

@[simp]
theorem commaTail_cons (location : Location) (first : List Token) (rest : List (List Token)) :
    commaTail location (first :: rest) =
      .fixed .comma location :: (first ++ commaTail location rest) := rfl

/-- Token lists with commas between them. -/
def separated (location : Location) : List (List Token) → List Token
  | [] => []
  | first :: rest => first ++ commaTail location rest

/-- The elements of a tuple after the first one; there is a comma even if there are none. -/
def tupleTail (location : Location) : List (List Token) → List Token
  | [] => [.fixed .comma location]
  | items => commaTail location items

/-- The elements of a tuple. -/
def tupleElements (location : Location) : List (List Token) → List Token
  | [] => []
  | first :: rest => first ++ tupleTail location rest

/-- The statements of a block with separators between them and, if `trailing`, after the last one.
-/
def statements (trailing : Bool) (location : Location) : List (List Token) → List Token
  | [] => []
  | first :: rest =>
    first ++
      if rest.isEmpty && !trailing then []
      else .inserted .statementEnd location :: statements trailing location rest

/-- Tokens between two brackets. -/
def bracketed (opening closing : Token.Kind) (location : Location) (tokens : List Token) :
    List Token :=
  .fixed opening location :: (tokens ++ [.fixed closing location])

/-- Statements between the start and the end of a block. -/
def block (trailing : Bool) (location : Location) (items : List (List Token)) : List Token :=
  .inserted .blockStart location ::
    (statements trailing location items ++ [.inserted .blockEnd location])

end Rendering

open Rendering

namespace Pattern

mutual

/-- The tokens of a pattern. -/
def tokens : Pattern → List Token
  | .name bound location => [⟨.identifier, .text bound, location⟩]
  | .tuple elements location =>
    bracketed .leftParen .rightParen location (tupleElements location (tokenLists elements))

/-- The tokens of several patterns. -/
def tokenLists : List Pattern → List (List Token)
  | [] => []
  | pattern :: rest => tokens pattern :: tokenLists rest

end

@[simp]
theorem tokenLists_eq_map (patterns : List Pattern) :
    tokenLists patterns = patterns.map tokens := by
  induction patterns with
  | nil => rfl
  | cons pattern rest ih => simp [tokenLists, ih]

end Pattern

namespace Node

/-- The nodes that need no parentheses. -/
def isAtomic : Node → Bool
  | .identifier .. | .integer .. | .float .. | .boolean .. | .unit .. | .template .. | .list ..
  | .tuple .. => true
  | _ => false

/-- The tokens of a node as part of an expression: in parentheses unless it is atomic. -/
def enclosed (node : Node) (tokens : List Token) : List Token :=
  if node.isAtomic then tokens else bracketed .leftParen .rightParen node.location tokens

/-- The tokens of a node as a branch: only expressions are parts of an expression. -/
def asBranch (node : Node) (tokens : List Token) : List Token :=
  if node.fits .operand then node.enclosed tokens else tokens

/-- The arguments of a call; a call marker stands in for those that are missing. -/
def asArguments (location : Location) : List (List Token) → List Token
  | [] => [.fixed .bang location]
  | items => items.flatten

variable (trailing : Bool)

mutual

/-- The tokens of a node. -/
def tokens : Node → List Token
  | .identifier name location => [⟨.identifier, .text name, location⟩]
  | .integer value location => [⟨.integer, .integer value, location⟩]
  | .float value location => [⟨.float, .float value, location⟩]
  | .boolean value location =>
    [⟨if value then .trueWord else .falseWord, .boolean value, location⟩]
  | .unit location => bracketed .leftParen .rightParen location []
  | .template parts location => [⟨.string, .segments (segments parts), location⟩]
  | .list elements location =>
    bracketed .leftBracket .rightBracket location (separated location (operands elements))
  | .tuple elements location =>
    bracketed .leftParen .rightParen location (tupleElements location (operands elements))
  | .range low high location =>
    low.enclosed (tokens low) ++ .fixed .doubleDot location :: high.enclosed (tokens high)
  | .binary operator left right location =>
    left.enclosed (tokens left) ++ .fixed operator.kind location :: right.enclosed (tokens right)
  | .unary operator operand location =>
    .fixed operator.kind location :: operand.enclosed (tokens operand)
  | .call callee arguments location =>
    callee.enclosed (tokens callee) ++ asArguments location (operands arguments)
  | .conditional condition thenBranch elseBranch location =>
    .fixed .ifWord location :: (condition.enclosed (tokens condition) ++
      .fixed .thenWord location :: (thenBranch.asBranch (tokens thenBranch) ++
        .fixed .elseWord location :: elseBranch.asBranch (tokens elseBranch)))
  | .lambda parameters body location =>
    .fixed .fnWord location :: ((Pattern.tokenLists parameters).flatten ++
      .fixed .thinArrow location :: blockTokens body)
  | .binding pattern value declares location =>
    pattern.tokens ++ .fixed (bindingKind declares) location :: value.enclosed (tokens value)
  | .update name operator value location =>
    ⟨.identifier, .text name, location⟩ ::
      .fixed operator.kind location :: value.enclosed (tokens value)
  | .forLoop pattern iterable body location =>
    .fixed .forWord location :: (pattern.tokens ++
      .fixed .leftArrow location :: (iterable.enclosed (tokens iterable) ++
        .fixed .colon location :: blockTokens body))
  | .whileLoop condition body location =>
    .fixed .whileWord location :: (condition.enclosed (tokens condition) ++
      .fixed .colon location :: blockTokens body)
  | .block inner => blockTokens inner

/-- The tokens of several nodes, each as part of an expression. -/
def operands : List Node → List (List Token)
  | [] => []
  | node :: rest => node.enclosed (tokens node) :: operands rest

/-- The tokens of several statements. -/
def statementLists : List Node → List (List Token)
  | [] => []
  | node :: rest => tokens node :: statementLists rest

/-- The tokens of a block. -/
def blockTokens : Block Node → List Token
  | ⟨statements, location⟩ => Rendering.block trailing location (statementLists statements)

/-- The segments of a string template. -/
def segments : List (Part Node) → List Segment
  | [] => []
  | .text content :: rest => .text content :: segments rest
  | .expression node :: rest =>
    .expression (node.enclosed (tokens node) ++ [.inserted .endOfFile node.location]) "" ::
      segments rest

end

/-- The tokens of a node as part of an expression. -/
def operand (node : Node) : List Token := node.enclosed (node.tokens trailing)

@[simp]
theorem operands_eq_map (nodes : List Node) :
    operands trailing nodes = nodes.map (operand trailing) := by
  induction nodes with
  | nil => rfl
  | cons node rest ih => simp [operands, operand, ih]

@[simp]
theorem statementLists_eq_map (nodes : List Node) :
    statementLists trailing nodes = nodes.map (tokens trailing) := by
  induction nodes with
  | nil => rfl
  | cons node rest ih => simp [statementLists, ih]

end Node

/-- The tokens of a program, with an end of file at a given place. -/
def Program.tokens (trailing : Bool) (program : Program) (last : Location) : List Token :=
  Rendering.statements trailing program.location
    (program.statements.map (Node.tokens trailing)) ++ [.inserted .endOfFile last]

end Offside
