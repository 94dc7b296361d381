import Offside.Token.Printer
import Offside.Tree

/-!
# Outlines of syntax trees

An outline shows a tree as named nodes with named fields, one to a line and indented by depth. There
are two styles: the plain one, and one that encloses the fields of a node in parentheses.
-/

namespace Offside

mutual

/-- A node with its fields. -/
inductive Outline where
  | node (name : String) (fields : List (String × OutlineField))

/-- What a field holds. -/
inductive OutlineField where
  /-- A value without parts. -/
  | leaf (text : String)
  | single (node : Outline)
  | several (nodes : List Outline)

end

namespace Outline

/-- How outlines are written. -/
structure Style where
  /-- What stands after the name of a node with fields. -/
  opening : String
  /-- What ends a node with fields, on a line of its own. -/
  closing : Option String
  /-- What stands between the name of a field and a node or a list. -/
  separator : String
  /-- What stands between the name of a field and a list in brackets or a leaf. -/
  assignment : String
  /-- The list without nodes. -/
  nothing : String

/-- Names and colons. -/
def Style.plain : Style := ⟨":", none, ":", ": ", "[]"⟩

/-- Parentheses and equals signs. -/
def Style.enclosed : Style := ⟨"(", some ")", "=", "=", "()"⟩

/-- The indentation at a depth. -/
def indentation (depth : Nat) : String := "".pushn ' ' (2 * depth)

mutual

/-- The lines of a node at a depth. -/
def lines (style : Style) (depth : Nat) : Outline → List String
  | .node name [] => [indentation depth ++ name]
  | .node name fields =>
    (indentation depth ++ name ++ style.opening) :: fieldLines style depth fields ++
      (style.closing.map (indentation depth ++ ·)).toList

/-- The lines of the fields of a node at a depth. -/
def fieldLines (style : Style) (depth : Nat) : List (String × OutlineField) → List String
  | [] => []
  | (key, .leaf text) :: rest =>
    (indentation (depth + 1) ++ key ++ style.assignment ++ text) :: fieldLines style depth rest
  | (key, .single inner) :: rest =>
    (indentation (depth + 1) ++ key ++ style.separator) ::
      (lines style (depth + 2) inner ++ fieldLines style depth rest)
  | (key, .several []) :: rest =>
    (indentation (depth + 1) ++ key ++ style.assignment ++ style.nothing) ::
      fieldLines style depth rest
  | (key, .several nodes) :: rest =>
    (indentation (depth + 1) ++ key ++ style.assignment ++ "[") ::
      (nodeLines style (depth + 2) nodes ++
        ((indentation (depth + 1) ++ "]") :: fieldLines style depth rest))

/-- The lines of several nodes at a depth. -/
def nodeLines (style : Style) (depth : Nat) : List Outline → List String
  | [] => []
  | inner :: rest => lines style depth inner ++ nodeLines style depth rest

end

end Outline

namespace Pattern

mutual

/-- The outline of a pattern. -/
def outline : Pattern → Outline
  | .name bound _ => .node "NamePattern" [("name", .leaf (Text.quoted bound))]
  | .tuple elements _ => .node "TuplePattern" [("elements", .several (outlines elements))]

/-- The outlines of several patterns. -/
def outlines : List Pattern → List Outline
  | [] => []
  | pattern :: rest => outline pattern :: outlines rest

end

end Pattern

/-- An operator in an outline: its family, its name and its spelling. -/
def Outline.operator (family name text : String) : OutlineField :=
  .leaf ("<" ++ family ++ "." ++ name ++ ": " ++ Text.quoted text ++ ">")

/-- The name of an operator in outlines. -/
def BinaryOperator.name : BinaryOperator → String
  | add => "ADD"
  | subtract => "SUB"
  | multiply => "MUL"
  | divide => "DIV"
  | floorDivide => "FLOOR_DIV"
  | modulo => "MOD"
  | concat => "CONCAT"
  | equal => "EQ"
  | notEqual => "NE"
  | less => "LT"
  | greater => "GT"
  | lessEqual => "LE"
  | greaterEqual => "GE"
  | and => "AND"
  | or => "OR"

/-- The name of an operator in outlines. -/
def UnaryOperator.name : UnaryOperator → String
  | negate => "NEG"
  | not => "NOT"

/-- The name of an operator in outlines. -/
def UpdateOperator.name : UpdateOperator → String
  | append => "APPEND"
  | concat => "CONCAT"

namespace Node

mutual

/-- The outline of a node. -/
def outline : Node → Outline
  | .identifier name _ => .node "Identifier" [("name", .leaf (Text.quoted name))]
  | .integer value _ => .node "IntegerLiteral" [("value", .leaf (toString value))]
  | .float value _ => .node "FloatLiteral" [("value", .leaf (Decimal.floatText value))]
  | .boolean value _ => .node "BooleanLiteral" [("value", .leaf (truthText value))]
  | .unit _ => .node "UnitLiteral" []
  | .template parts _ => .node "StringTemplate" [("parts", .several (partOutlines parts))]
  | .list elements _ => .node "ListLiteral" [("elements", .several (outlines elements))]
  | .tuple elements _ => .node "TupleLiteral" [("elements", .several (outlines elements))]
  | .range low high _ =>
    .node "RangeLiteral" [("low", .single (outline low)), ("high", .single (outline high))]
  | .binary operator left right _ =>
    .node "BinaryOp" [("operator", Outline.operator "BinaryOperator" operator.name operator.text),
      ("left", .single (outline left)), ("right", .single (outline right))]
  | .unary operator operand _ =>
    .node "UnaryOp" [("operator", Outline.operator "UnaryOperator" operator.name operator.text),
      ("operand", .single (outline operand))]
  | .call callee arguments _ =>
    .node "Call" [("callee", .single (outline callee)),
      ("arguments", .several (outlines arguments))]
  | .conditional condition thenBranch elseBranch _ =>
    .node "If" [("condition", .single (outline condition)),
      ("then_branch", .single (outline thenBranch)),
      ("else_branch", .single (outline elseBranch))]
  | .lambda parameters body _ =>
    .node "Lambda" [("params", .several (Pattern.outlines parameters)),
      ("body", .single (blockOutline "Block" body))]
  | .binding pattern value declares _ =>
    .node "Let" [("pattern", .single pattern.outline), ("value", .single (outline value)),
      ("declare", .leaf (truthText declares))]
  | .update name operator value _ =>
    .node "Assign"
      [("target", .single (.node "Identifier" [("name", .leaf (Text.quoted name))])),
        ("operator", Outline.operator "AssignOperator" operator.name operator.text),
        ("value", .single (outline value))]
  | .forLoop pattern iterable body _ =>
    .node "For" [("pattern", .single pattern.outline), ("iterable", .single (outline iterable)),
      ("body", .single (blockOutline "Block" body))]
  | .whileLoop condition body _ =>
    .node "While" [("condition", .single (outline condition)),
      ("body", .single (blockOutline "Block" body))]
  | .block inner => blockOutline "Block" inner

/-- The outlines of several nodes. -/
def outlines : List Node → List Outline
  | [] => []
  | node :: rest => outline node :: outlines rest

/-- The outline of a block, under the name `name`. -/
def blockOutline (name : String) : Block Node → Outline
  | ⟨statements, _⟩ => .node name [("statements", .several (outlines statements))]

/-- The outline of a part of a string template. -/
def partOutline : Part Node → Outline
  | .text content => .node "TemplateText" [("text", .leaf (Text.quoted content))]
  | .expression node => .node "TemplateExpression" [("expression", .single (outline node))]

/-- The outlines of the parts of a string template. -/
def partOutlines : List (Part Node) → List Outline
  | [] => []
  | part :: rest => partOutline part :: partOutlines rest

end

end Node

/-- The outline of a program. -/
def Outline.ofProgram (program : Program) : Outline := Node.blockOutline "Program" program

end Offside
