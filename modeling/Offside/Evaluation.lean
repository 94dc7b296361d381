import Offside.Evaluation.Binding
import Offside.Evaluation.Builtins
import Offside.Evaluation.Operators

/-!
# Evaluation

A node is evaluated in a context and gives a value; statements give the unit. Blocks, calls and the
rounds of a loop have scopes of their own. A function that gets fewer arguments than it takes waits
for the others, and the surplus of arguments goes to its result.

Evaluation is defined by its steps: what a node does is said in terms of an `evaluate` and an
`apply` for the nodes and calls inside it. Fuel bounds how deeply steps are nested and how often a
loop under a condition goes round; an evaluation that ends does so with all larger amounts of fuel
too.
-/

namespace Offside.Eval

section Steps

variable (settings : Settings) (evaluate : Context → Node → Eval Value)

/-- Execute statements in order; the value is that of the last one. -/
def runStatements (context : Context) : List Node → (last : Value) → Eval Value
  | [], last => pure last
  | statement :: rest, _ => do
    tick settings statement.location
    let value ← evaluate context statement
    runStatements context rest value

/-- Execute the statements of a block in a given context. -/
def runBlock (context : Context) (block : Block Node) : Eval Value :=
  runStatements settings evaluate context block.statements .unit

/-- Evaluate nodes in order. -/
def evaluateAll (context : Context) : List Node → Eval (List Value)
  | [] => pure []
  | node :: rest => do
    let value ← evaluate context node
    let values ← evaluateAll context rest
    return value :: values

/-- The text of a template's parts. -/
def evaluateParts (context : Context) : List (Part Node) → Eval String
  | [] => pure ""
  | .text content :: rest => do
    let later ← evaluateParts context rest
    return content ++ later
  | .expression node :: rest => do
    let value ← evaluate context node
    let text ← ofNumbers value.display
    let later ← evaluateParts context rest
    return text ++ later

/-- The truth value of a condition. -/
def condition (context : Context) (node : Node) : Eval Bool := do
  match ← evaluate context node with
  | .bool value => return value
  | value => fail .typeMismatch ("condition must be a Bool, found " ++ value.typeName) node.location

/-- The truth value of an operand of `&&` or `||`. -/
def logicalOperand (operator : BinaryOperator) (context : Context) (node : Node) : Eval Bool := do
  match ← evaluate context node with
  | .bool value => return value
  | value =>
    fail .typeMismatch
      ("'" ++ operator.text ++ "' expects Bool operands, found " ++ value.typeName) node.location

/-- The result of a binary operator; the second operand of `&&` and `||` is evaluated only if it
decides. -/
def evaluateBinary (context : Context) (operator : BinaryOperator) (left right : Node)
    (location : Location) : Eval Value := do
  match operator with
  | .and =>
    if ← logicalOperand evaluate operator context left then
      let value ← logicalOperand evaluate operator context right
      return .bool value
    else return .bool false
  | .or =>
    if ← logicalOperand evaluate operator context left then return .bool true
    else
      let value ← logicalOperand evaluate operator context right
      return .bool value
  | _ =>
    let left ← evaluate context left
    let right ← evaluate context right
    operation operator left right location

/-- A function without a name gets the name that it is bound to, and a new identity with it. -/
def named (pattern : Pattern) (value : Value) : Eval Value := do
  match pattern, value with
  | .name name _, .closure parameters body scope bound none _ =>
    let identity ← newIdentity
    return .closure parameters body scope bound (some name) identity
  | _, value => return value

/-- One round of a loop over elements. -/
def forRound (context : Context) (pattern : Pattern) (body : Block Node) (item : Value) :
    Eval Unit := do
  let scope ← newScope context.scope
  bindPattern false scope pattern item
  let _ ← runBlock settings evaluate { context with scope := scope } body

/-- A loop over the elements of a value. -/
def evaluateFor (context : Context) (pattern : Pattern) (iterable : Node) (body : Block Node) :
    Eval Value := do
  let value ← evaluate context iterable
  match Elements.ofIterable? value with
  | none => fail .typeMismatch ("cannot iterate over " ++ value.typeName) iterable.location
  | some elements =>
    elements.foldM (fun _ item => forRound settings evaluate context pattern body item) ()
    return .unit

/-- A loop under a condition, of at most `fuel` rounds. -/
def evaluateWhile (context : Context) (test : Node) (body : Block Node) :
    (fuel : Nat) → Eval Value
  | 0 => throw .exhausted
  | fuel + 1 => do
    if ← condition evaluate context test then
      let scope ← newScope context.scope
      let _ ← runBlock settings evaluate { context with scope := scope } body
      evaluateWhile context test body fuel
    else return .unit

/-- One step of the evaluation of a node. -/
def evaluateStep (fuel : Nat) (apply : Depth → Value → List Value → Location → Eval Value)
    (context : Context) (node : Node) : Eval Value := do
  match node with
  | .identifier name location => lookup context.scope name location
  | .integer value _ => return .int value
  | .float value _ => return .float value
  | .boolean value _ => return .bool value
  | .unit _ => return .unit
  | .template parts _ =>
    let text ← evaluateParts evaluate context parts
    return .string text
  | .list elements _ =>
    let items ← evaluateAll evaluate context elements
    return .list items
  | .tuple elements _ =>
    let items ← evaluateAll evaluate context elements
    return .tuple items
  | .range low high location =>
    let low ← evaluate context low
    let high ← evaluate context high
    rangeBetween low high location
  | .binary operator left right location =>
    evaluateBinary evaluate context operator left right location
  | .unary operator operand location =>
    let operand ← evaluate context operand
    unaryOperation operator operand location
  | .call callee arguments location =>
    let function ← evaluate context callee
    let arguments ← evaluateAll evaluate context arguments
    apply context.depth function arguments location
  | .conditional test thenBranch elseBranch _ =>
    if ← condition evaluate context test then evaluate context thenBranch
    else evaluate context elseBranch
  | .lambda parameters body _ =>
    let identity ← newIdentity
    return .closure parameters body context.scope [] none identity
  | .binding pattern value declares _ =>
    let value ← evaluate context value
    let value ← named pattern value
    bindPattern (!declares && settings.rebindOnAssign) context.scope pattern value
    return .unit
  | .update name operator value location =>
    let current ← lookup context.scope name location
    let operand ← evaluate context value
    let result ← updated operator name current operand location value.location
    assign context.scope name result location
    return .unit
  | .forLoop pattern iterable body _ => evaluateFor settings evaluate context pattern iterable body
  | .whileLoop test body _ => evaluateWhile settings evaluate context test body fuel
  | .block block =>
    let scope ← newScope context.scope
    runBlock settings evaluate { context with scope := scope } block

/-- Call a closure on as many arguments as it has parameters. -/
def callClosure (depth : Depth) (parameters : List Pattern) (body : Block Node) (scope : Nat)
    (name : Option String) (arguments : List Value) (location : Location) : Eval Value := do
  if settings.maxCallDepth ≤ depth.closures then
    fail .limitExceeded
      ("maximum call depth of " ++ toString settings.maxCallDepth ++ " exceeded") location
  else
    let inner ← newScope scope
    bindPatterns false inner parameters arguments
    note (.closure (name.getD "<fn>") arguments.length depth.closures)
    runBlock settings evaluate ⟨inner, depth.inClosure⟩ body

/-- One step of the application of a value to arguments. Too few arguments are kept for later, and
those that are too many go to the result. -/
def applyStep (apply : Depth → Value → List Value → Location → Eval Value) (depth : Depth)
    (function : Value) (arguments : List Value) (location : Location) : Eval Value := do
  match function with
  | .closure parameters body scope bound name _ =>
    let wanted := parameters.length - bound.length
    if arguments.length < wanted then
      let identity ← newIdentity
      return .closure parameters body scope (bound ++ arguments) name identity
    else
      let result ← callClosure settings evaluate depth parameters body scope name
        (bound ++ arguments.take wanted) location
      if arguments.length = wanted then return result
      else apply depth result (arguments.drop wanted) location
  | .builtin builtin bound _ =>
    let wanted := builtin.wanted bound.length
    if arguments.length < wanted then
      let identity ← newIdentity
      return .builtin builtin (bound ++ arguments) (some identity)
    else
      enterBuiltin settings depth builtin
      let result ← runBuiltin (apply depth.inBuiltin · · location) builtin
        (bound ++ arguments.take wanted) location
      if arguments.length = wanted then return result
      else apply depth result (arguments.drop wanted) location
  | value =>
    fail .notCallable ("value of type " ++ value.typeName ++ " is not callable") location

end Steps

mutual

/-- The value of a node. -/
def evaluate (settings : Settings) : (fuel : Nat) → Context → Node → Eval Value
  | 0, _, _ => throw .exhausted
  | fuel + 1, context, node =>
    evaluateStep settings (evaluate settings fuel) fuel (apply settings fuel) context node

/-- The result of applying a value to arguments, with `depth` calls around it. -/
def apply (settings : Settings) : (fuel : Nat) → Depth → Value → List Value → Location →
    Eval Value
  | 0, _, _, _, _ => throw .exhausted
  | fuel + 1, depth, function, arguments, location =>
    applyStep settings (evaluate settings fuel) (apply settings fuel) depth function arguments
      location

end

end Offside.Eval
