import Offside.Proofs.Tree.Reading

/-!
# The trees that the parser builds

The nodes of a parsed program stand where a written form has them, with one exception: a dot call or
a pipe after a conditional statement takes the whole statement as its first argument.
-/

namespace Offside

namespace Position

/-- What stands at the first position may also stand at the second one. -/
def Within (position wider : Position) : Prop :=
  position = .operand ∨ position = wider ∨ position = .branch ∧ wider = .clause

variable {position wider : Position}

theorem allowsBinding_inner (position : Position) :
    position.inner.allowsBinding = position.allowsBinding := by
  cases position <;> rfl

theorem allowsBlock_inner (position : Position) : position.inner.allowsBlock := by
  cases position <;> rfl

theorem Within.inner (within : position.Within wider) : position.inner.Within wider.inner := by
  cases position <;> cases wider <;> simp_all [Within, Position.inner]

theorem Within.of_statement (within : Position.statement.Within wider) : wider = .statement := by
  simpa [Within, eq_comm] using within

theorem Within.allowsBinding (within : position.Within wider) (allowed : position.allowsBinding) :
    wider.allowsBinding := by
  cases position <;> cases wider <;> simp_all [Within, Position.allowsBinding]

theorem Within.allowsBlock (within : position.Within wider) (allowed : position.allowsBlock) :
    wider.allowsBlock := by
  cases position <;> cases wider <;> simp_all [Within, Position.allowsBlock]

end Position

namespace Node

/-- A tree of the grammar and where it stands. If `chains`, the calls of a statement may take a
conditional statement. -/
inductive Built (chains : Bool) : Node → Position → Prop where
  | identifier name location position : Built chains (.identifier name location) position
  | integer value location position : Built chains (.integer value location) position
  | float value location position : Built chains (.float value location) position
  | boolean value location position : Built chains (.boolean value location) position
  | unit location position : Built chains (.unit location) position
  | template location position {parts : List (Part Node)} :
      (∀ node, .expression node ∈ parts → Built chains node .operand) →
      Built chains (.template parts location) position
  | list location position {elements : List Node} :
      (∀ element ∈ elements, Built chains element .operand) →
      Built chains (.list elements location) position
  | tuple location position {elements : List Node} :
      elements ≠ [] → (∀ element ∈ elements, Built chains element .operand) →
      Built chains (.tuple elements location) position
  | range location position {low high : Node} :
      Built chains low .operand → Built chains high .operand →
      Built chains (.range low high location) position
  | binary operator location position {left right : Node} :
      Built chains left .operand → Built chains right .operand →
      Built chains (.binary operator left right location) position
  | unary operator location position {operand : Node} :
      Built chains operand .operand → Built chains (.unary operator operand location) position
  | call location position {callee : Node} {arguments : List Node} :
      Built chains callee .operand → (∀ argument ∈ arguments, Built chains argument .operand) →
      Built chains (.call callee arguments location) position
  /-- A call that takes a conditional statement, or a call that takes one. -/
  | chain location {callee head : Node} {arguments : List Node} :
      chains = true → Built chains callee .operand →
      Built chains head .statement → head.isStatement = false →
      (∀ argument ∈ arguments, Built chains argument .operand) →
      Built chains (.call callee (head :: arguments) location) .statement
  | conditional location position {condition thenBranch elseBranch : Node} :
      Built chains condition .operand → Built chains thenBranch position.inner →
      Built chains elseBranch position.inner →
      Built chains (.conditional condition thenBranch elseBranch location) position
  | lambda location position {parameters : List Pattern} {body : Block Node} :
      parameters.all Pattern.fits →
      (∀ statement ∈ body.statements, Built chains statement .statement) →
      Built chains (.lambda parameters body location) position
  | binding declares location {position : Position} {pattern : Pattern} {value : Node} :
      position.allowsBinding → pattern.fits → Built chains value .operand →
      Built chains (.binding pattern value declares location) position
  | update name operator location {position : Position} {value : Node} :
      position.allowsBinding → Built chains value .operand →
      Built chains (.update name operator value location) position
  | forLoop location {pattern : Pattern} {iterable : Node} {body : Block Node} :
      pattern.fits → Built chains iterable .operand →
      (∀ statement ∈ body.statements, Built chains statement .statement) →
      Built chains (.forLoop pattern iterable body location) .statement
  | whileLoop location {condition : Node} {body : Block Node} :
      Built chains condition .operand →
      (∀ statement ∈ body.statements, Built chains statement .statement) →
      Built chains (.whileLoop condition body location) .statement
  | block {inner : Block Node} {position : Position} :
      position.allowsBlock →
      (∀ statement ∈ inner.statements, Built chains statement .statement) →
      Built chains (.block inner) position

theorem partsFit_iff (parts : List (Part Node)) :
    partsFit parts ↔ ∀ node, .expression node ∈ parts → node.fits .operand := by
  induction parts with
  | nil => simp [partsFit]
  | cons part rest ih => cases part <;> simp [partsFit, ih]

theorem blockFits_iff (block : Block Node) :
    blockFits block ↔ ∀ statement ∈ block.statements, statement.fits .statement := by
  cases block
  simp [blockFits]

/-- The trees with a written form are the trees of the grammar without chains. -/
theorem built_iff_fits (node : Node) (position : Position) :
    Built false node position ↔ node.fits position := by
  constructor
  · intro built
    induction built with
    | template location position each ih => exact (partsFit_iff _).mpr ih
    | chain location chained => simp at chained
    | _ => simp_all [fits, blockFits_iff]
  · intro fits
    induction node using Node.induction generalizing position with
    | template parts location ih =>
        exact .template _ _ fun node found =>
          ih node found _ ((partsFit_iff parts).mp fits node found)
    | forLoop | whileLoop =>
        obtain rfl : position = .statement := by simp_all [Node.fits]
        constructor <;> simp_all [Node.fits, blockFits_iff]
    | _ => constructor <;> simp_all [Node.fits, blockFits_iff]

namespace Built

variable {chains : Bool} {node : Node}

theorem isStatement_eq_false (built : Built chains node .operand) : node.isStatement = false := by
  cases built <;> simp_all [isStatement, Position.allowsBinding]

/-- A part of an expression can stand everywhere, and a branch of an expression can also be a branch
of a statement. -/
theorem widen {position wider : Position} (built : Built chains node position)
    (within : position.Within wider) : Built chains node wider := by
  induction built generalizing wider with
  | conditional location position condition _ _ _ then_ih else_ih =>
      exact .conditional _ _ condition (then_ih within.inner) (else_ih within.inner)
  | chain location chained callee head expression each =>
      obtain rfl := within.of_statement
      exact .chain _ chained callee head expression each
  | forLoop location pattern iterable each =>
      obtain rfl := within.of_statement
      exact .forLoop _ pattern iterable each
  | whileLoop location condition each =>
      obtain rfl := within.of_statement
      exact .whileLoop _ condition each
  | binding declares location allowed pattern value =>
      exact .binding _ _ (within.allowsBinding allowed) pattern value
  | update name operator location allowed value =>
      exact .update _ _ _ (within.allowsBinding allowed) value
  | block allowed each => exact .block (within.allowsBlock allowed) each
  | _ => constructor <;> assumption

/-- The parts of a call within an expression. -/
theorem of_call {callee : Node} {arguments : List Node} {location : Location}
    (built : Built chains (.call callee arguments location) .operand) :
    Built chains callee .operand ∧ ∀ argument ∈ arguments, Built chains argument .operand := by
  cases built with
  | call _ _ callee each => exact ⟨callee, each⟩

end Built

end Node

namespace Program

/-- A program that is a tree of the grammar. -/
def Built (chains : Bool) (program : Program) : Prop :=
  ∀ statement ∈ program.statements, statement.Built chains .statement

theorem built_iff_fits (program : Program) : program.Built false ↔ program.fits := by
  simp only [Built, fits, Node.blockFits_iff, Node.built_iff_fits]

instance (program : Program) : Decidable (program.Built false) :=
  decidable_of_iff _ program.built_iff_fits.symm

end Program

namespace Tree

/-! ## What a parser returns -/

/-- Whatever a computation returns has a property. -/
def Returns {α : Type} (outcome : Except Defect α) (holds : α → Prop) : Prop :=
  ∀ result, outcome = .ok result → holds result

variable {α β : Type} {holds : α → Prop} {holds' : β → Prop}

theorem Returns.ok {result : α} (here : holds result) : Returns (.ok result) holds := by
  rintro _ ⟨⟩
  exact here

theorem Returns.error (defect : Defect) : Returns (.error defect) holds := by
  rintro _ ⟨⟩

theorem Returns.bind {outcome : Except Defect α} {next : α → Except Defect β}
    (returns : Returns outcome holds)
    (goesOn : ∀ result, holds result → Returns (next result) holds') :
    Returns (outcome >>= next) holds' := by
  cases outcome with
  | error defect => exact .error defect
  | ok result => exact goesOn result (returns result rfl)

end Tree

end Offside
