import Offside.Tree

/-!
# Shapes of syntax trees

Which nodes stand where in a tree that has a written form, and when two trees differ in nothing but
the places of their nodes. Statements about all trees are proved by an induction that gives, for a
node with a list of parts, the statement for every member of the list.
-/

namespace Offside

namespace Pattern

/-- Induction over patterns, with one hypothesis for each element of a tuple. -/
@[elab_as_elim]
theorem induction {motive : Pattern → Prop}
    (name : ∀ bound location, motive (.name bound location))
    (tuple : ∀ elements location, (∀ element ∈ elements, motive element) →
      motive (.tuple elements location))
    (pattern : Pattern) : motive pattern :=
  @Pattern.rec motive (fun elements => ∀ element ∈ elements, motive element)
    name tuple (by simp) (fun _ _ first rest => by simpa using ⟨first, rest⟩) pattern

mutual

/-- A pattern with all of its places changed. -/
def relocate (move : Location → Location) : Pattern → Pattern
  | .name bound location => .name bound (move location)
  | .tuple elements location => .tuple (relocateAll move elements) (move location)

/-- Several patterns with all of their places changed. -/
def relocateAll (move : Location → Location) : List Pattern → List Pattern
  | [] => []
  | pattern :: rest => relocate move pattern :: relocateAll move rest

end

@[simp]
theorem relocateAll_eq_map (move : Location → Location) (patterns : List Pattern) :
    relocateAll move patterns = patterns.map (relocate move) := by
  induction patterns with
  | nil => rfl
  | cons pattern rest ih => simp [relocateAll, ih]

@[simp]
theorem location_relocate (move : Location → Location) (pattern : Pattern) :
    (pattern.relocate move).location = move pattern.location := by
  cases pattern <;> rfl

@[simp]
theorem relocate_id (pattern : Pattern) : pattern.relocate id = pattern := by
  induction pattern using Pattern.induction with
  | name bound location => rfl
  | tuple elements location ih =>
      rw [relocate, relocateAll_eq_map, List.map_congr_left ih, List.map_id']
      rfl

mutual

/-- Whether a pattern has a written form: no tuple in it is empty. -/
def fits : Pattern → Bool
  | .name _ _ => true
  | .tuple elements _ => !elements.isEmpty && fitsAll elements

/-- Whether several patterns have a written form. -/
def fitsAll : List Pattern → Bool
  | [] => true
  | pattern :: rest => fits pattern && fitsAll rest

end

@[simp]
theorem fitsAll_eq_all (patterns : List Pattern) : fitsAll patterns = patterns.all fits := by
  induction patterns with
  | nil => rfl
  | cons pattern rest ih => simp [fitsAll, ih]

end Pattern

/-- The places where a node can stand. -/
inductive Position where
  /-- Part of an expression, or an expression that is a statement. -/
  | operand
  /-- A branch of a conditional within an expression. -/
  | branch
  /-- A statement of a block or of a program. -/
  | statement
  /-- A branch of a conditional that is a statement. -/
  | clause
  deriving DecidableEq

namespace Position

/-- Where the branches of a conditional stand. -/
def inner : Position → Position
  | .operand | .branch => .branch
  | .statement | .clause => .clause

/-- Where bindings and updates may stand. -/
def allowsBinding : Position → Bool
  | .statement | .clause => true
  | _ => false

/-- Where blocks may stand on their own. -/
def allowsBlock : Position → Bool
  | .branch | .clause => true
  | _ => false

end Position

namespace Node

/-- Induction over nodes, with one hypothesis for each part of a template, each element of a list or
a tuple, each argument of a call and each statement of a block. -/
@[elab_as_elim]
theorem induction {motive : Node → Prop}
    (identifier : ∀ name location, motive (.identifier name location))
    (integer : ∀ value location, motive (.integer value location))
    (float : ∀ value location, motive (.float value location))
    (boolean : ∀ value location, motive (.boolean value location))
    (unit : ∀ location, motive (.unit location))
    (template : ∀ parts location, (∀ node, .expression node ∈ parts → motive node) →
      motive (.template parts location))
    (list : ∀ elements location, (∀ element ∈ elements, motive element) →
      motive (.list elements location))
    (tuple : ∀ elements location, (∀ element ∈ elements, motive element) →
      motive (.tuple elements location))
    (range : ∀ low high location, motive low → motive high → motive (.range low high location))
    (binary : ∀ operator left right location, motive left → motive right →
      motive (.binary operator left right location))
    (unary : ∀ operator operand location, motive operand →
      motive (.unary operator operand location))
    (call : ∀ callee arguments location, motive callee →
      (∀ argument ∈ arguments, motive argument) → motive (.call callee arguments location))
    (conditional : ∀ condition thenBranch elseBranch location, motive condition →
      motive thenBranch → motive elseBranch →
      motive (.conditional condition thenBranch elseBranch location))
    (lambda : ∀ parameters body location, (∀ statement ∈ body.statements, motive statement) →
      motive (.lambda parameters body location))
    (binding : ∀ pattern value declares location, motive value →
      motive (.binding pattern value declares location))
    (update : ∀ name operator value location, motive value →
      motive (.update name operator value location))
    (forLoop : ∀ pattern iterable body location, motive iterable →
      (∀ statement ∈ body.statements, motive statement) →
      motive (.forLoop pattern iterable body location))
    (whileLoop : ∀ condition body location, motive condition →
      (∀ statement ∈ body.statements, motive statement) →
      motive (.whileLoop condition body location))
    (block : ∀ inner, (∀ statement ∈ inner.statements, motive statement) → motive (.block inner))
    (node : Node) : motive node :=
  @Node.rec motive (fun parts => ∀ node, .expression node ∈ parts → motive node)
    (fun nodes => ∀ node ∈ nodes, motive node)
    (fun inner => ∀ statement ∈ inner.statements, motive statement)
    (fun part => ∀ node, part = .expression node → motive node)
    identifier integer float boolean unit template list tuple range binary unary call conditional
    lambda binding update forLoop whileLoop block
    (by simp)
    (fun _ _ first rest node found =>
      (List.mem_cons.mp found).elim (fun here => first node here.symm) (rest node))
    (by simp)
    (fun _ _ first rest => by simpa using ⟨first, rest⟩)
    (fun _ _ statements => statements)
    (fun _ node impossible => by simp at impossible)
    (fun _ here node same => by
      cases same
      exact here)
    node

mutual

/-- A node with all of its places changed, those of its parts included. -/
def relocate (move : Location → Location) : Node → Node
  | .identifier name location => .identifier name (move location)
  | .integer value location => .integer value (move location)
  | .float value location => .float value (move location)
  | .boolean value location => .boolean value (move location)
  | .unit location => .unit (move location)
  | .template parts location => .template (relocateParts move parts) (move location)
  | .list elements location => .list (relocateAll move elements) (move location)
  | .tuple elements location => .tuple (relocateAll move elements) (move location)
  | .range low high location => .range (relocate move low) (relocate move high) (move location)
  | .binary operator left right location =>
    .binary operator (relocate move left) (relocate move right) (move location)
  | .unary operator operand location => .unary operator (relocate move operand) (move location)
  | .call callee arguments location =>
    .call (relocate move callee) (relocateAll move arguments) (move location)
  | .conditional condition thenBranch elseBranch location =>
    .conditional (relocate move condition) (relocate move thenBranch) (relocate move elseBranch)
      (move location)
  | .lambda parameters body location =>
    .lambda (Pattern.relocateAll move parameters) (relocateBlock move body) (move location)
  | .binding pattern value declares location =>
    .binding (pattern.relocate move) (relocate move value) declares (move location)
  | .update name operator value location =>
    .update name operator (relocate move value) (move location)
  | .forLoop pattern iterable body location =>
    .forLoop (pattern.relocate move) (relocate move iterable) (relocateBlock move body)
      (move location)
  | .whileLoop condition body location =>
    .whileLoop (relocate move condition) (relocateBlock move body) (move location)
  | .block inner => .block (relocateBlock move inner)

/-- Several nodes with all of their places changed. -/
def relocateAll (move : Location → Location) : List Node → List Node
  | [] => []
  | node :: rest => relocate move node :: relocateAll move rest

/-- A block with all of its places changed. -/
def relocateBlock (move : Location → Location) : Block Node → Block Node
  | ⟨statements, location⟩ => ⟨relocateAll move statements, move location⟩

/-- The parts of a template with all of their places changed. -/
def relocateParts (move : Location → Location) : List (Part Node) → List (Part Node)
  | [] => []
  | .text content :: rest => .text content :: relocateParts move rest
  | .expression node :: rest => .expression (relocate move node) :: relocateParts move rest

end

@[simp]
theorem relocateAll_eq_map (move : Location → Location) (nodes : List Node) :
    relocateAll move nodes = nodes.map (relocate move) := by
  induction nodes with
  | nil => rfl
  | cons node rest ih => simp [relocateAll, ih]

@[simp]
theorem statements_relocateBlock (move : Location → Location) (block : Block Node) :
    (relocateBlock move block).statements = block.statements.map (relocate move) := by
  cases block
  rw [relocateBlock, relocateAll_eq_map]

@[simp]
theorem location_relocateBlock (move : Location → Location) (block : Block Node) :
    (relocateBlock move block).location = move block.location := by
  cases block
  rfl

@[simp]
theorem location_relocate (move : Location → Location) (node : Node) :
    (node.relocate move).location = move node.location := by
  cases node with
  | block inner =>
      cases inner
      rfl
  | _ => rfl

theorem map_relocate_id {nodes : List Node} (each : ∀ node ∈ nodes, node.relocate id = node) :
    nodes.map (relocate id) = nodes := by
  rw [List.map_congr_left each, List.map_id']

theorem relocateBlock_id {block : Block Node}
    (each : ∀ node ∈ block.statements, node.relocate id = node) :
    relocateBlock id block = block := by
  cases block
  rw [relocateBlock, relocateAll_eq_map, map_relocate_id each]
  rfl

theorem relocateParts_id {parts : List (Part Node)}
    (each : ∀ node, .expression node ∈ parts → node.relocate id = node) :
    relocateParts id parts = parts := by
  induction parts with
  | nil => rfl
  | cons part rest ih =>
      have later := ih fun node member => each node (List.mem_cons_of_mem _ member)
      cases part with
      | text content => rw [relocateParts, later]
      | expression node => rw [relocateParts, later, each node List.mem_cons_self]

@[simp]
theorem relocate_id (node : Node) : node.relocate id = node := by
  induction node using Node.induction with
  | template parts location ih => simp [relocate, relocateParts_id ih]
  | list elements location ih | tuple elements location ih => simp [relocate, map_relocate_id ih]
  | call callee arguments location first ih => simp [relocate, first, map_relocate_id ih]
  | lambda parameters body location ih =>
      have same : Pattern.relocate id = id := funext Pattern.relocate_id
      simp [relocate, relocateBlock_id ih, same]
  | forLoop pattern iterable body location first ih
  | whileLoop condition body location first ih => simp [relocate, first, relocateBlock_id ih]
  | block inner ih => simp [relocate, relocateBlock_id ih]
  | _ => simp_all [relocate]

/-- A node without its places: all of them are the start of a text. -/
def unplaced (node : Node) : Node := node.relocate fun _ => .start none

mutual

/-- Whether a node has a written form where it stands: blocks are branches of conditionals, bindings
and updates are statements or branches of statements, loops are statements, and no tuple is empty.
-/
def fits : Node → Position → Bool
  | .identifier _ _, _ => true
  | .integer _ _, _ => true
  | .float _ _, _ => true
  | .boolean _ _, _ => true
  | .unit _, _ => true
  | .template parts _, _ => partsFit parts
  | .list elements _, _ => fitAll elements .operand
  | .tuple elements _, _ => !elements.isEmpty && fitAll elements .operand
  | .range low high _, _ => fits low .operand && fits high .operand
  | .binary _ left right _, _ => fits left .operand && fits right .operand
  | .unary _ operand _, _ => fits operand .operand
  | .call callee arguments _, _ => fits callee .operand && fitAll arguments .operand
  | .conditional condition thenBranch elseBranch _, position =>
    fits condition .operand && (fits thenBranch position.inner && fits elseBranch position.inner)
  | .lambda parameters body _, _ => parameters.all Pattern.fits && blockFits body
  | .binding pattern value _ _, position =>
    position.allowsBinding && (pattern.fits && fits value .operand)
  | .update _ _ value _, position => position.allowsBinding && fits value .operand
  | .forLoop pattern iterable body _, position =>
    decide (position = .statement) && (pattern.fits && (fits iterable .operand && blockFits body))
  | .whileLoop condition body _, position =>
    decide (position = .statement) && (fits condition .operand && blockFits body)
  | .block inner, position => position.allowsBlock && blockFits inner

/-- Whether several nodes have a written form where they stand. -/
def fitAll : List Node → Position → Bool
  | [], _ => true
  | node :: rest, position => fits node position && fitAll rest position

/-- Whether the statements of a block have a written form. -/
def blockFits : Block Node → Bool
  | ⟨statements, _⟩ => fitAll statements .statement

/-- Whether the interpolated expressions of a template have a written form. -/
def partsFit : List (Part Node) → Bool
  | [] => true
  | .text _ :: rest => partsFit rest
  | .expression node :: rest => fits node .operand && partsFit rest

end

@[simp]
theorem fitAll_eq_all (nodes : List Node) (position : Position) :
    fitAll nodes position = nodes.all (fits · position) := by
  induction nodes with
  | nil => rfl
  | cons node rest ih => simp [fitAll, ih]

end Node

namespace Program

/-- Whether a program has a written form. -/
def fits (program : Program) : Bool := Node.blockFits program

/-- A program without the places of its nodes. -/
def unplaced (program : Program) : Program := Node.relocateBlock (fun _ => .start none) program

theorem unplaced_congr {program program' : Program}
    (same : program.statements.map Node.unplaced = program'.statements.map Node.unplaced) :
    program.unplaced = program'.unplaced := by
  unfold Node.unplaced at same
  obtain ⟨statements, location⟩ := program
  obtain ⟨statements', location'⟩ := program'
  simp [unplaced, Node.relocateBlock, same]

end Program

end Offside
