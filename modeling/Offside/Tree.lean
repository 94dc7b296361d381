import Offside.Location

/-!
# Syntax trees

A program is a list of statements, and a statement is a node: an expression, a binding, an update or
a loop. Every way to write a call ends up as the same `call` node, and a conditional without an
`else` has the unit as its second branch.
-/

namespace Offside

/-- The shape on the left of a binding. -/
inductive Pattern where
  /-- Any value, which gets a name. -/
  | name (name : String) (location : Location)
  /-- A tuple with as many elements. -/
  | tuple (elements : List Pattern) (location : Location)

namespace Pattern

/-- The place of a pattern. -/
def location : Pattern → Location
  | .name _ location => location
  | .tuple _ location => location

mutual

/-- The names that a pattern binds, from left to right, with their places. -/
def names : Pattern → List (String × Location)
  | .name bound location => [(bound, location)]
  | .tuple elements _ => namesOfAll elements

/-- The names that several patterns bind, from left to right, with their places. -/
def namesOfAll : List Pattern → List (String × Location)
  | [] => []
  | pattern :: rest => names pattern ++ namesOfAll rest

end

end Pattern

/-- The operators between two operands. -/
inductive BinaryOperator where
  | add
  | subtract
  | multiply
  | divide
  | floorDivide
  | modulo
  | concat
  | equal
  | notEqual
  | less
  | greater
  | lessEqual
  | greaterEqual
  | and
  | or
  deriving DecidableEq

/-- The spelling of an operator. -/
def BinaryOperator.text : BinaryOperator → String
  | add => "+"
  | subtract => "-"
  | multiply => "*"
  | divide => "/"
  | floorDivide => "//"
  | modulo => "%"
  | concat => "++"
  | equal => "=="
  | notEqual => "!="
  | less => "<"
  | greater => ">"
  | lessEqual => "<="
  | greaterEqual => ">="
  | and => "&&"
  | or => "||"

/-- The operators before an operand. -/
inductive UnaryOperator where
  | negate
  | not
  deriving DecidableEq

/-- The spelling of an operator. -/
def UnaryOperator.text : UnaryOperator → String
  | negate => "-"
  | not => "!"

/-- The operators that update a binding in place. -/
inductive UpdateOperator where
  | append
  | concat
  deriving DecidableEq

/-- The spelling of an operator. -/
def UpdateOperator.text : UpdateOperator → String
  | append => "+="
  | concat => "++="

/-- A part of a string template. -/
inductive Part (α : Type) where
  /-- Literal text. -/
  | text (text : String)
  /-- An interpolated expression. -/
  | expression (expression : α)

/-- A sequence of statements, the value of which is that of the last one. -/
structure Block (α : Type) where
  /-- The statements in order. -/
  statements : List α
  /-- The place of the first statement, or of what stands in for it. -/
  location : Location

/-- An expression or a statement. -/
inductive Node where
  | identifier (name : String) (location : Location)
  | integer (value : Int) (location : Location)
  | float (value : Float) (location : Location)
  | boolean (value : Bool) (location : Location)
  | unit (location : Location)
  | template (parts : List (Part Node)) (location : Location)
  | list (elements : List Node) (location : Location)
  | tuple (elements : List Node) (location : Location)
  /-- The integers from `low` to `high`, both included. -/
  | range (low high : Node) (location : Location)
  | binary (operator : BinaryOperator) (left right : Node) (location : Location)
  | unary (operator : UnaryOperator) (operand : Node) (location : Location)
  | call (callee : Node) (arguments : List Node) (location : Location)
  | conditional (condition thenBranch elseBranch : Node) (location : Location)
  | lambda (parameters : List Pattern) (body : Block Node) (location : Location)
  /-- A binding with `:=` if `declares`, else with `=`. -/
  | binding (pattern : Pattern) (value : Node) (declares : Bool) (location : Location)
  | update (name : String) (operator : UpdateOperator) (value : Node) (location : Location)
  | forLoop (pattern : Pattern) (iterable : Node) (body : Block Node) (location : Location)
  | whileLoop (condition : Node) (body : Block Node) (location : Location)
  | block (block : Block Node)

instance : Inhabited Node := ⟨.unit (.start none)⟩

namespace Node

/-- The place of a node. -/
def location : Node → Location
  | .identifier _ location => location
  | .integer _ location => location
  | .float _ location => location
  | .boolean _ location => location
  | .unit location => location
  | .template _ location => location
  | .list _ location => location
  | .tuple _ location => location
  | .range _ _ location => location
  | .binary _ _ _ location => location
  | .unary _ _ location => location
  | .call _ _ location => location
  | .conditional _ _ _ location => location
  | .lambda _ _ location => location
  | .binding _ _ _ location => location
  | .update _ _ _ location => location
  | .forLoop _ _ _ location => location
  | .whileLoop _ _ location => location
  | .block inner => inner.location

/-- Statements that are no expressions: bindings, updates and loops. -/
def isStatement : Node → Bool
  | .binding .. | .update .. | .forLoop .. | .whileLoop .. => true
  | _ => false

end Node

/-- A program is the block of its top-level statements. -/
abbrev Program := Block Node

end Offside
