import Offside.Proofs.Evaluation.Interruption

/-!
# Evaluations under a regime

The nodes that a regime permits are evaluated alike on both sides, and so are the applications that
it permits, whatever the fuel, and also when they are interrupted. What remains to be said of a
regime is that it enters calls; it does if it notes them and both settings refuse the same calls.
-/

namespace Offside

/-- A new scope with the arguments of a call bound to its parameters. -/
def Eval.bindArguments (scope : Nat) (parameters : List Pattern) (arguments : List Value) :
    Eval Nat := do
  let inner ← newScope scope
  bindPatterns false inner parameters arguments
  return inner

theorem Eval.callClosure_eq (settings : Settings) (evaluate : Context → Node → Eval Value)
    (depth : Depth) (parameters : List Pattern) (body : Block Node) (scope : Nat)
    (name : Option String) (arguments : List Value) (location : Location) :
    callClosure settings evaluate depth parameters body scope name arguments location =
      if settings.maxCallDepth ≤ depth.closures then
        fail .limitExceeded
          ("maximum call depth of " ++ toString settings.maxCallDepth ++ " exceeded") location
      else (do
        let inner ← bindArguments scope parameters arguments
        note (.closure (name.getD "<fn>") arguments.length depth.closures)
        runBlock settings evaluate ⟨inner, depth.inClosure⟩ body) := by
  simp only [callClosure, bindArguments, bind_assoc, pure_bind]

namespace Regime

open Coupling (Any Same)

variable {Stage : Type} [Preorder Stage] {left right : Settings}

/-- Evaluations with so much fuel and within `depth` calls are related where they are permitted. -/
def Performs (regime : Regime Stage left right) (fuel : Nat) (depth : Depth)
    (evaluate evaluate' : Context → Node → Eval Value) : Prop :=
  ∀ ⦃stage scope scope' node⦄, regime.Evaluates stage fuel depth node →
    regime.Scope stage scope scope' →
    regime.Related stage regime.Values (evaluate ⟨scope, depth⟩ node)
      (evaluate' ⟨scope', depth⟩ node)

/-- Applications with so much fuel and within `depth` calls are related where they are permitted. -/
def Runs (regime : Regime Stage left right) (fuel : Nat) (depth : Depth)
    (apply apply' : Depth → Value → List Value → Location → Eval Value) : Prop :=
  ∀ ⦃stage function function' arguments arguments' location⦄,
    regime.Applies stage fuel depth function arguments.length →
    regime.Values stage function function' → regime.Lists stage arguments arguments' →
    regime.Located location →
    regime.Related stage regime.Values (apply depth function arguments location)
      (apply' depth function' arguments' location)

/-- The results of a block: either some statement was counted, or there was none. -/
def Done (regime : Regime Stage left right) (stage : Stage) (block : Block Node) (later : Stage)
    (value value' : Value) : Prop :=
  regime.Values later value value' ∧
    (regime.Ticked stage later ∨ block.statements = [] ∧ value = .unit)

variable {regime : Regime Stage left right} {stage : Stage} {fuel : Nat} {depth : Depth}
  {evaluate evaluate' : Context → Node → Eval Value}

/-! ## Statements -/

section Statements

variable (performs : regime.Performs fuel depth evaluate evaluate') {scope scope' : Nat}

include performs

theorem runStatements {statements : List Node} (scopes : regime.Scope stage scope scope')
    (located : ∀ statement ∈ statements, regime.Located statement.location)
    (permitted : ∀ statement ∈ statements, ∀ middle, regime.Ticked stage middle →
      regime.Evaluates middle fuel depth statement)
    {last last' : Value} (alike : regime.Values stage last last') :
    regime.Related stage
      (fun later value value' => regime.Values later value value' ∧
        (regime.Ticked stage later ∨ statements = [] ∧ value = last))
      (Eval.runStatements left evaluate ⟨scope, depth⟩ statements last)
      (Eval.runStatements right evaluate' ⟨scope', depth⟩ statements last') := by
  induction statements generalizing stage last last' with
  | nil => exact regime.pure ⟨alike, .inr ⟨rfl, rfl⟩⟩
  | cons statement rest ih =>
      rw [List.forall_mem_cons] at located permitted
      refine regime.bind (regime.tick located.1) fun middle _ _ le ticked => ?_
      refine regime.bind (performs (permitted.1 middle ticked) (regime.scope_later le scopes)) ?_
      intro later _ _ le' alike
      have le := le.trans le'
      have run := ih (regime.scope_later le scopes) located.2
        (fun statement member final ticked' =>
          permitted.2 statement member final (regime.ticked_earlier le ticked')) alike
      refine Coupling.mono run fun final _ _ le'' done => ⟨done.1, .inl ?_⟩
      exact regime.ticked_later ticked (le'.trans le'')

theorem runBlock {block : Block Node} (scopes : regime.Scope stage scope scope')
    (located : ∀ statement ∈ block.statements, regime.Located statement.location)
    (permitted : ∀ statement ∈ block.statements, ∀ middle, regime.Ticked stage middle →
      regime.Evaluates middle fuel depth statement) :
    regime.Related stage (regime.Done stage block)
      (Eval.runBlock left evaluate ⟨scope, depth⟩ block)
      (Eval.runBlock right evaluate' ⟨scope', depth⟩ block) :=
  runStatements performs scopes located permitted ((regime.matching stage).make .unit)

/-- A block in a scope of its own. -/
theorem innerBlock {block : Block Node} (scopes : regime.Scope stage scope scope' ∨
      ∃ parameters body, (regime.matching stage).Closes parameters body scope scope')
    (permitted : ∀ statement ∈ block.statements, regime.Evaluates stage fuel depth statement) :
    regime.Related stage (regime.Done stage block)
      (do
        let inner ← Eval.newScope scope
        Eval.runBlock left evaluate ⟨inner, depth⟩ block)
      (do
        let inner ← Eval.newScope scope'
        Eval.runBlock right evaluate' ⟨inner, depth⟩ block) := by
  refine regime.bind (regime.newScope scopes) fun middle _ _ le inner => ?_
  have run := runBlock performs inner
    (fun statement member => (regime.located (permitted statement member)).location)
    fun statement member later ticked =>
      regime.evaluates_later (le.trans (regime.le_of_ticked ticked)) (permitted statement member)
  exact Coupling.mono run fun later _ _ _ done =>
    ⟨done.1, done.2.imp_left (regime.ticked_earlier le)⟩

end Statements

/-! ## Parts of nodes -/

section Parts

variable (performs : regime.Performs fuel depth evaluate evaluate') {scope scope' : Nat}
  (scopes : regime.Scope stage scope scope')

include performs scopes

theorem evaluateAll {nodes : List Node}
    (permitted : ∀ node ∈ nodes, regime.Evaluates stage fuel depth node) :
    regime.Related stage
      (fun later values values' => regime.Lists later values values' ∧ values.length = nodes.length)
      (Eval.evaluateAll evaluate ⟨scope, depth⟩ nodes)
      (Eval.evaluateAll evaluate' ⟨scope', depth⟩ nodes) := by
  induction nodes generalizing stage with
  | nil => exact regime.pure ⟨.nil, rfl⟩
  | cons node rest ih =>
      rw [List.forall_mem_cons] at permitted
      refine regime.bind (performs permitted.1 scopes) fun middle _ _ le value => ?_
      refine regime.bind (ih (regime.scope_later le scopes) fun node member =>
        regime.evaluates_later le (permitted.2 node member)) ?_
      exact fun _ _ _ le' values => regime.pure
        ⟨.cons (regime.value_later le' value) values.1, congrArg (· + 1) values.2⟩

theorem evaluateParts {parts : List (Part Node)}
    (permitted : ∀ node, .expression node ∈ parts → regime.Evaluates stage fuel depth node) :
    regime.Related stage Same (Eval.evaluateParts evaluate ⟨scope, depth⟩ parts)
      (Eval.evaluateParts evaluate' ⟨scope', depth⟩ parts) := by
  induction parts generalizing stage with
  | nil => exact regime.pure rfl
  | cons part rest ih =>
      have others {later : Stage} (le : stage ≤ later) :=
        ih (regime.scope_later le scopes) fun node member =>
          regime.evaluates_later le (permitted node (List.mem_cons_of_mem _ member))
      cases part with
      | text content =>
          exact regime.bind (others le_rfl) fun _ _ _ _ same => regime.pure (same ▸ rfl)
      | expression node =>
          refine regime.bind (performs (permitted node List.mem_cons_self) scopes) ?_
          intro middle _ _ le value
          rw [value.display]
          refine regime.bind (Coupling.ofNumbers_same _) fun later text text' le' same => ?_
          cases same
          refine regime.bind (others (le.trans le')) ?_
          exact fun _ _ _ _ same => regime.pure (same ▸ rfl)

section Condition

variable {node : Node} (permitted : regime.Evaluates stage fuel depth node)

include permitted

theorem condition :
    regime.Related stage Same (Eval.condition evaluate ⟨scope, depth⟩ node)
      (Eval.condition evaluate' ⟨scope', depth⟩ node) := by
  refine regime.bind (performs permitted scopes) fun later _ _ _ value => ?_
  cases (regime.matching later).view value with
  | bool => exact regime.pure rfl
  | _ => exact regime.fail (regime.located permitted).location ..

theorem logicalOperand (operator : BinaryOperator) :
    regime.Related stage Same (Eval.logicalOperand evaluate operator ⟨scope, depth⟩ node)
      (Eval.logicalOperand evaluate' operator ⟨scope', depth⟩ node) := by
  refine regime.bind (performs permitted scopes) fun later _ _ _ value => ?_
  cases (regime.matching later).view value with
  | bool => exact regime.pure rfl
  | _ => exact regime.fail (regime.located permitted).location ..

end Condition

theorem evaluateBinary {first second : Node} (permitted : regime.Evaluates stage fuel depth first)
    (permittedSecond : regime.Evaluates stage fuel depth second) (operator : BinaryOperator)
    {location : Location} (located : regime.Located location) :
    regime.Related stage regime.Values
      (Eval.evaluateBinary evaluate ⟨scope, depth⟩ operator first second location)
      (Eval.evaluateBinary evaluate' ⟨scope', depth⟩ operator first second location) := by
  have both : regime.Related stage regime.Values
      (do
        let first ← evaluate ⟨scope, depth⟩ first
        let second ← evaluate ⟨scope, depth⟩ second
        Eval.operation operator first second location)
      (do
        let first ← evaluate' ⟨scope', depth⟩ first
        let second ← evaluate' ⟨scope', depth⟩ second
        Eval.operation operator first second location) := by
    refine regime.bind (performs permitted scopes) fun _ _ _ le value => ?_
    refine regime.bind (performs (regime.evaluates_later le permittedSecond)
      (regime.scope_later le scopes)) fun _ _ _ le' other => ?_
    exact Coupling.operation located (regime.value_later le' value) other operator
  have decided (operator : BinaryOperator) {later : Stage} (le : stage ≤ later) :
      regime.Related later regime.Values
        (do
          let value ← Eval.logicalOperand evaluate operator ⟨scope, depth⟩ second
          return .bool value)
        (do
          let value ← Eval.logicalOperand evaluate' operator ⟨scope', depth⟩ second
          return .bool value) :=
    regime.bind (logicalOperand performs (regime.scope_later le scopes)
      (regime.evaluates_later le permittedSecond) operator)
      fun _ _ _ _ same => same ▸ regime.give (.bool _)
  cases operator with
  | and =>
      refine regime.bind (logicalOperand performs scopes permitted .and) ?_
      rintro later holds _ le rfl
      cases holds with
      | true => exact decided .and le
      | false => exact regime.give (.bool _)
  | or =>
      refine regime.bind (logicalOperand performs scopes permitted .or) ?_
      rintro later holds _ le rfl
      cases holds with
      | true => exact regime.give (.bool _)
      | false => exact decided .or le
  | _ => exact both

/-! ## Loops -/

theorem forRound {pattern : Pattern} (located : pattern.Located regime.Located) {body : Block Node}
    (permitted : ∀ statement ∈ body.statements, regime.Evaluates stage fuel depth statement)
    {item item' : Value} (alike : regime.Values stage item item') :
    regime.Related stage Any (Eval.forRound left evaluate ⟨scope, depth⟩ pattern body item)
      (Eval.forRound right evaluate' ⟨scope', depth⟩ pattern body item') := by
  refine regime.bind (regime.newScope (.inl scopes)) fun later _ _ le inner => ?_
  refine regime.bind (bindPattern true located inner (regime.value_later le alike)) ?_
  intro final _ _ le' _
  refine regime.bind (runBlock performs (regime.scope_later le' inner)
    (fun statement member => (regime.located (permitted statement member)).location)
    fun statement member _ ticked => regime.evaluates_later
      ((le.trans le').trans (regime.le_of_ticked ticked)) (permitted statement member)) ?_
  exact fun _ _ _ _ _ => regime.pure trivial

theorem evaluateFor {pattern : Pattern} (located : pattern.Located regime.Located) {iterable : Node}
    {body : Block Node} (permitted : regime.Evaluates stage fuel depth iterable)
    (permittedBody : ∀ statement ∈ body.statements, regime.Evaluates stage fuel depth statement) :
    regime.Related stage regime.Values
      (Eval.evaluateFor left evaluate ⟨scope, depth⟩ pattern iterable body)
      (Eval.evaluateFor right evaluate' ⟨scope', depth⟩ pattern iterable body) := by
  refine regime.bind (performs permitted scopes) fun later value value' le alike => ?_
  have elements := alike.ofIterable?
  rw [alike.typeName]
  generalize Elements.ofIterable? value = found, Elements.ofIterable? value' = found' at elements
  cases elements with
  | none => exact regime.fail (regime.located permitted).location ..
  | some elements =>
      refine regime.bind (R := Any) (Coupling.foldM ?_ elements.1 trivial) ?_
      · intro final _ _ _ _ le' _ item
        have le := le.trans le'
        exact forRound performs (regime.scope_later le scopes) located
          (fun statement member => regime.evaluates_later le (permittedBody statement member)) item
      · exact fun _ _ _ _ _ => regime.give .unit

/-- A loop under a condition may go on for `rounds` rounds. -/
theorem evaluateWhile {test : Node} {body : Block Node} {location : Location}
    (permitted : regime.Evaluates stage fuel depth test)
    (permittedBody : ∀ statement ∈ body.statements, regime.Evaluates stage fuel depth statement)
    {rounds : Nat} (loops : regime.Evaluates stage (rounds + 1) depth
      (.whileLoop test body location)) :
    regime.Related stage regime.Values
      (Eval.evaluateWhile left evaluate ⟨scope, depth⟩ test body rounds)
      (Eval.evaluateWhile right evaluate' ⟨scope', depth⟩ test body (rounds + regime.surplus)) := by
  induction rounds generalizing stage with
  | zero =>
      have spent := regime.part loops test List.mem_cons_self
      refine regime.exhausted (.inl ⟨test, spent⟩) fun none => ?_
      rw [none]
      rfl
  | succ rounds ih =>
      rw [Nat.succ_add]
      refine regime.bind (condition performs scopes permitted) ?_
      rintro later holds _ le rfl
      cases holds with
      | false => exact regime.give .unit
      | true =>
          have run := innerBlock performs (.inl (regime.scope_later le scopes)) fun _ member =>
            regime.evaluates_later le (permittedBody _ member)
          rw [if_pos rfl, if_pos rfl, ← bind_assoc, ← bind_assoc]
          refine regime.bind run fun final _ _ le' done => ?_
          have goesOn : regime.Ticked stage final ∨ stage ≤ final ∧ body.statements = [] :=
            done.2.imp (regime.ticked_earlier le) fun empty => ⟨le.trans le', empty.1⟩
          have le := le.trans le'
          exact ih (regime.scope_later le scopes) (regime.evaluates_later le permitted)
            (fun _ member => regime.evaluates_later le (permittedBody _ member))
            (regime.again loops goesOn)

end Parts

/-! ## Nodes -/

theorem mem_parts_template {parts : List (Part Node)} {location : Location} {node : Node}
    (member : .expression node ∈ parts) : node ∈ (Node.template parts location).parts :=
  List.mem_filterMap.mpr ⟨_, member, rfl⟩

theorem evaluateStep (performs : regime.Performs fuel depth evaluate evaluate')
    {apply apply' : Depth → Value → List Value → Location → Eval Value}
    (runs : regime.Runs fuel depth apply apply') {scope scope' : Nat}
    (scopes : regime.Scope stage scope scope') {node : Node}
    (permitted : regime.Evaluates stage (fuel + 1) depth node) :
    regime.Related stage regime.Values
      (Eval.evaluateStep left evaluate fuel apply ⟨scope, depth⟩ node)
      (Eval.evaluateStep right evaluate' (fuel + regime.surplus) apply' ⟨scope', depth⟩ node) := by
  have located := regime.located permitted
  have parts := regime.part permitted
  have perform {part : Node} (member : part ∈ node.parts) {later : Stage} (le : stage ≤ later) :=
    performs (regime.evaluates_later le (parts part member)) (regime.scope_later le scopes)
  cases node with
  | identifier name location =>
      exact Coupling.mono (regime.lookup name scopes located.location) fun _ _ _ _ read => read.1
  | integer value location => exact regime.give (.int value)
  | float value location => exact regime.give (.float value)
  | boolean value location => exact regime.give (.bool value)
  | unit location => exact regime.give .unit
  | template pieces location =>
      exact regime.bind (evaluateParts performs scopes fun node member =>
        parts node (mem_parts_template member)) fun _ _ _ _ same => same ▸ regime.give (.string _)
  | list elements location =>
      exact regime.bind (evaluateAll performs scopes parts) fun _ _ _ _ each =>
        regime.give (.list each.1)
  | tuple elements location =>
      exact regime.bind (evaluateAll performs scopes parts) fun _ _ _ _ each =>
        regime.give (.tuple each.1)
  | range low high location =>
      refine regime.bind (perform (by simp [Node.parts]) le_rfl) fun _ _ _ le value => ?_
      refine regime.bind (perform (by simp [Node.parts]) le) fun _ _ _ le' other => ?_
      exact Coupling.rangeBetween located.location (regime.value_later le' value) other
  | binary operator first second location =>
      exact evaluateBinary performs scopes (parts first (by simp [Node.parts]))
        (parts second (by simp [Node.parts])) operator located.location
  | unary operator operand location =>
      refine regime.bind (perform (by simp [Node.parts]) le_rfl) fun _ _ _ _ value => ?_
      exact Coupling.unaryOperation located.location value operator
  | call callee arguments location =>
      have parts := List.forall_mem_cons.mp parts
      refine regime.bind (perform List.mem_cons_self le_rfl) fun middle function _ le value => ?_
      refine regime.bind (evaluateAll performs (regime.scope_later le scopes) fun node member =>
        regime.evaluates_later le (parts.2 node member)) fun _ _ _ le' ⟨each, count⟩ => ?_
      exact runs (count ▸ regime.applies_later (le.trans le') (regime.callee function permitted))
        (regime.value_later le' value) each located.location
  | conditional test thenBranch elseBranch location =>
      refine regime.bind (condition performs scopes (parts test (by simp [Node.parts]))) ?_
      rintro later holds _ le rfl
      cases holds with
      | true => exact perform (by simp [Node.parts]) le
      | false => exact perform (by simp [Node.parts]) le
  | lambda parameters body location =>
      refine regime.bind regime.newIdentity fun _ _ _ le same => ?_
      exact regime.give (.closure (regime.closes (regime.evaluates_later le permitted)
        (regime.scope_later le scopes)) .nil same)
  | binding pattern value declares location =>
      refine regime.bind (perform (by simp [Node.parts]) le_rfl) fun _ _ _ le alike => ?_
      refine regime.bind (named pattern alike) fun _ _ _ le' alike => ?_
      refine regime.bind (bindPattern declares (located.patterns pattern List.mem_cons_self)
        (regime.scope_later (le.trans le') scopes) alike) ?_
      exact fun _ _ _ _ _ => regime.give .unit
  | update name operator value location =>
      have locatedValue := (regime.located (parts value (by simp [Node.parts]))).location
      refine regime.bind (regime.lookup name scopes located.location) ?_
      intro _ _ _ le ⟨current, had⟩
      refine regime.bind (perform (by simp [Node.parts]) le) fun _ _ _ le' operand => ?_
      refine regime.bind (Coupling.updated located.location (regime.value_later le' current) operand
        operator name locatedValue) fun _ _ _ le'' ⟨result, extended, proper⟩ => ?_
      have had := regime.had_later (le'.trans le'') had
      refine regime.bind (regime.assign (regime.scope_later ((le.trans le').trans le'') scopes)
        located.location had extended proper result) ?_
      exact fun _ _ _ _ _ => regime.give .unit
  | forLoop pattern iterable body location =>
      have parts := List.forall_mem_cons.mp parts
      exact evaluateFor performs scopes (located.patterns pattern List.mem_cons_self) parts.1
        parts.2
  | whileLoop test body location =>
      have parts := List.forall_mem_cons.mp parts
      exact evaluateWhile performs scopes parts.1 parts.2 permitted
  | block block =>
      exact Coupling.mono (innerBlock performs (.inl scopes) parts) fun _ _ _ _ done => done.1

/-! ## Applications -/

/-- Calls of closures are related if evaluations within them are. -/
structure EntersCalls (regime : Regime Stage left right) : Prop where
  call : ∀ {stage fuel depth parameters body scope scope' bound name identity count arguments
      arguments' location} {evaluate evaluate' : Context → Node → Eval Value},
    regime.Applies stage (fuel + 1) depth (.closure parameters body scope bound name identity)
      count →
    (regime.matching stage).Closes parameters body scope scope' →
    regime.Lists stage arguments arguments' → regime.Located location →
    regime.Performs fuel depth.inClosure evaluate evaluate' →
    regime.Related stage
      (fun later result result' => regime.Values later result result' ∧
        ∀ rest ≤ count, regime.Applies later fuel depth result rest)
      (Eval.callClosure left evaluate depth parameters body scope name arguments location)
      (Eval.callClosure right evaluate' depth parameters body scope' name arguments' location)

/-- Calls may be entered after they were noted, and no call is refused on one side alone. -/
structure NotesCalls (regime : Regime Stage left right) : Prop where
  located : ∀ {stage parameters body scope scope'},
    (regime.matching stage).Closes parameters body scope scope' →
    (∀ pattern ∈ parameters, pattern.Located regime.Located) ∧
      ∀ statement ∈ body.statements, regime.Located statement.location
  entered : ∀ {stage middle fuel depth parameters body scope scope' bound name identity count}
    (title : String) (given : Nat),
    regime.Applies stage (fuel + 1) depth (.closure parameters body scope bound name identity)
      count →
    (regime.matching stage).Closes parameters body scope scope' → stage ≤ middle →
    regime.Related middle (fun later _ _ => ∀ final, regime.Ticked later final →
      ∀ statement ∈ body.statements, regime.Evaluates final fuel depth.inClosure statement)
      (Eval.note (.closure title given depth.closures))
      (Eval.note (.closure title given depth.closures))
  returned : ∀ {stage later fuel depth parameters body scope bound name identity count result},
    regime.Applies stage (fuel + 1) depth (.closure parameters body scope bound name identity)
      count →
    regime.Ticked stage later ∨ stage ≤ later ∧ result = .unit →
    ∀ rest ≤ count, regime.Applies later fuel depth result rest
  alike : ∀ {stage fuel depth function count},
    regime.Applies stage (fuel + 1) depth function count →
    left.maxCallDepth = right.maxCallDepth ∨
      ↑depth.closures < left.maxCallDepth ∧ ↑depth.closures < right.maxCallDepth

theorem bindArguments {scope scope' : Nat} {parameters : List Pattern}
    (located : ∀ pattern ∈ parameters, pattern.Located regime.Located) {body : Block Node}
    (closes : (regime.matching stage).Closes parameters body scope scope')
    {arguments arguments' : List Value} (alike : regime.Lists stage arguments arguments') :
    regime.Related stage regime.Scope (Eval.bindArguments scope parameters arguments)
      (Eval.bindArguments scope' parameters arguments') := by
  refine regime.bind (regime.newScope (.inr ⟨_, _, closes⟩)) fun later _ _ le inner => ?_
  refine regime.bind (bindPatterns_of_each (fun pattern member => bindPattern true
    (located pattern member)) inner (regime.lists_later le alike)) ?_
  exact fun _ _ _ le' _ => regime.pure (regime.scope_later le' inner)

theorem NotesCalls.entersCalls (notes : regime.NotesCalls) : regime.EntersCalls := by
  constructor
  intro stage fuel depth parameters body scope scope' bound name identity count arguments arguments'
    location evaluate evaluate' permitted closes alike located performs
  have places := notes.located closes
  have both : left.maxCallDepth ≤ depth.closures ∧ left.maxCallDepth = right.maxCallDepth ∨
      ¬left.maxCallDepth ≤ depth.closures ∧ ¬right.maxCallDepth ≤ depth.closures := by
    have := notes.alike permitted
    omega
  rw [Eval.callClosure_eq, Eval.callClosure_eq, alike.length_eq]
  rcases both with ⟨refused, same⟩ | ⟨room, room'⟩
  · rw [← same, if_pos refused, if_pos refused]
    exact regime.fail located ..
  · rw [if_neg room, if_neg room']
    refine regime.bind (bindArguments places.1 closes alike) fun middle _ _ le inner => ?_
    refine regime.bind (notes.entered _ _ permitted closes le) fun later _ _ le' entered => ?_
    have run := runBlock performs (regime.scope_later le' inner) places.2
      fun statement member final ticked => entered final ticked statement member
    refine Coupling.mono run fun final _ _ le'' done => ⟨done.1, notes.returned permitted ?_⟩
    have le := le.trans le'
    exact done.2.imp (regime.ticked_earlier le) fun empty => ⟨le.trans le'', empty.2⟩

theorem applyStep (enters : regime.EntersCalls)
    (performs : regime.Performs fuel depth.inClosure evaluate evaluate')
    {apply apply' : Depth → Value → List Value → Location → Eval Value}
    (runs : regime.Runs fuel depth apply apply')
    (callbacks : regime.Runs fuel depth.inBuiltin apply apply') {function function' : Value}
    {arguments arguments' : List Value}
    (permitted : regime.Applies stage (fuel + 1) depth function arguments.length)
    (alike : regime.Values stage function function')
    (each : regime.Lists stage arguments arguments') {location : Location}
    (located : regime.Located location) :
    regime.Related stage regime.Values
      (Eval.applyStep left evaluate apply depth function arguments location)
      (Eval.applyStep right evaluate' apply' depth function' arguments' location) := by
  -- The surplus of arguments goes to the result.
  have passOn (wanted : Nat) {later : Stage} (le : stage ≤ later) {result result' : Value}
      (results : regime.Values later result result')
      (permitted : regime.Applies later fuel depth result (arguments.length - wanted)) :
      regime.Related later regime.Values
        (if arguments.length = wanted then return result
          else apply depth result (arguments.drop wanted) location)
        (if arguments'.length = wanted then return result'
          else apply' depth result' (arguments'.drop wanted) location) := by
    rw [each.length_eq]
    split
    · exact regime.pure results
    · rw [← List.length_drop] at permitted
      exact runs permitted results (regime.lists_later le (List.forall₂_drop wanted each)) located
  cases (regime.matching stage).view alike with
  | @closure parameters body _ _ bound bound' name _ _ closes held same =>
      simp only [Eval.applyStep, held.length_eq]
      by_cases few : arguments.length < parameters.length - bound'.length
      · rw [if_pos few, if_pos (each.length_eq ▸ few)]
        refine regime.bind regime.newIdentity fun later _ _ le same => ?_
        cases (regime.matching later).view (regime.value_later le alike) with
        | closure closes held _ =>
            exact regime.give (.closure closes
              (List.rel_append held (regime.lists_later le each)) same)
      · rw [if_neg few, if_neg (each.length_eq ▸ few)]
        refine regime.bind (enters.call permitted closes
          (List.rel_append held (List.forall₂_take _ each)) located performs) ?_
        exact fun _ _ _ le done => passOn _ le done.1 (done.2 _ (Nat.sub_le _ _))
  | @builtin builtin bound bound' _ _ held same =>
      simp only [Eval.applyStep, held.length_eq]
      by_cases few : arguments.length < builtin.wanted bound'.length
      · rw [if_pos few, if_pos (each.length_eq ▸ few)]
        refine regime.bind regime.newIdentity fun _ _ _ le same => ?_
        have held := regime.lists_later le (List.rel_append held each)
        exact regime.give (.builtin held (.some same))
      · rw [if_neg few, if_neg (each.length_eq ▸ few)]
        refine regime.bind (regime.enterBuiltin permitted) fun middle _ _ le allowed => ?_
        have calls : regime.Calls middle (apply depth.inBuiltin · · location)
            (apply' depth.inBuiltin · · location) :=
          fun le' few functions arguments => callbacks
            (regime.applies_later le' ((allowed _).1 _ few)) functions arguments located
        refine regime.bind (runBuiltin calls builtin (regime.lists_later le
          (List.rel_append held (List.forall₂_take _ each))) located) ?_
        have fewer : arguments.length - builtin.wanted bound'.length < arguments.length := by
          have := builtin.wanted_pos bound'.length
          omega
        exact fun _ result _ le' results => passOn _ (le.trans le') results
          (regime.applies_later le' ((allowed result).2 _ fewer))
  | _ => exact regime.fail located ..

/-! ## Whole evaluations -/

/-- Moments that correspond at a stage: their scopes and values do. -/
structure Occurs (regime : Regime Stage left right) (stage : Stage) (moment moment' : Moment) :
    Prop where
  scopes : List.Forall₂ (regime.Scope stage) moment.scopes moment'.scopes
  values : regime.Lists stage moment.values moment'.values

/-- The interruptions of evaluations are related. -/
def Interrupts (regime : Regime Stage left right)
    (interrupt interrupt' : Moment → World → Option Stop) : Prop :=
  ∀ ⦃stage moment moment'⦄, regime.Occurs stage moment moment' →
    regime.Related stage Any (Eval.pause interrupt moment) (Eval.pause interrupt' moment')

section Interrupted

variable {interrupt interrupt' : Moment → World → Option Stop}
  (interrupts : regime.Interrupts interrupt interrupt')

include interrupts

/-- What is evaluated between two pauses. -/
theorem paused {moment moment' : Moment} {step step' : Eval Value}
    (occurs : regime.Occurs stage moment moment')
    (related : ∀ later, stage ≤ later → regime.Related later regime.Values step step') :
    regime.Related stage regime.Values
      (do
        Eval.pause interrupt moment
        let value ← step
        Eval.pause interrupt (.giving value)
        return value)
      (do
        Eval.pause interrupt' moment'
        let value ← step'
        Eval.pause interrupt' (.giving value)
        return value) := by
  refine regime.bind (interrupts occurs) fun later _ _ le _ => ?_
  refine regime.bind (related later le) fun final _ _ _ value => ?_
  have gives : regime.Occurs final (.giving _) (.giving _) := ⟨.nil, .cons value .nil⟩
  refine regime.bind (interrupts gives) ?_
  exact fun _ _ _ le' _ => regime.pure (regime.value_later le' value)

/-- Whatever may be evaluated or applied is related, also if it is interrupted. -/
theorem related_until (enters : regime.EntersCalls) (fuel : Nat) (depth : Depth) :
    regime.Performs fuel depth (Eval.evaluateUntil left interrupt fuel)
        (Eval.evaluateUntil right interrupt' (fuel + regime.surplus)) ∧
      regime.Runs fuel depth (Eval.applyUntil left interrupt fuel)
        (Eval.applyUntil right interrupt' (fuel + regime.surplus)) := by
  induction fuel generalizing depth with
  | zero =>
      constructor
      · intro stage scope scope' node permitted scopes
        rw [Eval.evaluateUntil]
        refine regime.exhausted (.inl ⟨node, permitted⟩) fun none => ?_
        rw [none, Eval.evaluateUntil]
      · intro stage function function' arguments arguments' location permitted _ _ _
        rw [Eval.applyUntil]
        refine regime.exhausted (.inr ⟨function, _, permitted⟩) fun none => ?_
        rw [none, Eval.applyUntil]
  | succ fuel ih =>
      constructor
      · intro stage scope scope' node permitted scopes
        rw [Nat.succ_add, Eval.evaluateUntil, Eval.evaluateUntil]
        refine paused interrupts ⟨.cons scopes .nil, .nil⟩ fun later le => ?_
        exact evaluateStep (ih depth).1 (ih depth).2 (regime.scope_later le scopes)
          (regime.evaluates_later le permitted)
      · intro stage function function' arguments arguments' location permitted alike each located
        rw [Nat.succ_add, Eval.applyUntil, Eval.applyUntil]
        refine paused interrupts ⟨.nil, .cons alike each⟩ fun later le => ?_
        exact applyStep enters (ih depth.inClosure).1 (ih depth).2 (ih depth.inBuiltin).2
          (regime.applies_later le permitted) (regime.value_later le alike)
          (regime.lists_later le each) located

end Interrupted

/-- Whatever may be evaluated or applied is related. -/
theorem performs_and_runs (enters : regime.EntersCalls) (fuel : Nat) (depth : Depth) :
    regime.Performs fuel depth (Eval.evaluate left fuel)
        (Eval.evaluate right (fuel + regime.surplus)) ∧
      regime.Runs fuel depth (Eval.apply left fuel) (Eval.apply right (fuel + regime.surplus)) := by
  have never : regime.Interrupts (fun _ _ => none) fun _ _ => none :=
    fun _ _ _ _ => regime.pure trivial
  have related := related_until never enters fuel depth
  rwa [(Eval.until_never _ _).1, (Eval.until_never _ _).1, (Eval.until_never _ _).2,
    (Eval.until_never _ _).2] at related

end Regime

end Offside
