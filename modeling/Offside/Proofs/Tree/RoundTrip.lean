import Offside.Proofs.Tree.Built
import Offside.Proofs.Tree.Written

/-!
# Reading a written tree

Parsing the written form of a tree gives the tree back. Two kinds of nodes get their places from
their parts: a call stands where its function stands, and a binding where its pattern stands.
-/

namespace Offside

open Rendering
open Token (Kind)

namespace Node

mutual

/-- A node with the places that its written form gives to calls and bindings. -/
def settled : Node → Node
  | .identifier name location => .identifier name location
  | .integer value location => .integer value location
  | .float value location => .float value location
  | .boolean value location => .boolean value location
  | .unit location => .unit location
  | .template parts location => .template (settledParts parts) location
  | .list elements location => .list (settledAll elements) location
  | .tuple elements location => .tuple (settledAll elements) location
  | .range low high location => .range (settled low) (settled high) location
  | .binary operator left right location => .binary operator (settled left) (settled right) location
  | .unary operator operand location => .unary operator (settled operand) location
  | .call callee arguments _ =>
    .call (settled callee) (settledAll arguments) (settled callee).location
  | .conditional condition thenBranch elseBranch location =>
    .conditional (settled condition) (settled thenBranch) (settled elseBranch) location
  | .lambda parameters body location => .lambda parameters (settledBlock body) location
  | .binding pattern value declares _ => .binding pattern (settled value) declares pattern.location
  | .update name operator value location => .update name operator (settled value) location
  | .forLoop pattern iterable body location =>
    .forLoop pattern (settled iterable) (settledBlock body) location
  | .whileLoop condition body location =>
    .whileLoop (settled condition) (settledBlock body) location
  | .block inner => .block (settledBlock inner)

/-- Several nodes with the places that their written form gives to calls and bindings. -/
def settledAll : List Node → List Node
  | [] => []
  | node :: rest => settled node :: settledAll rest

/-- A block with the places that its written form gives to calls and bindings. -/
def settledBlock : Block Node → Block Node
  | ⟨statements, location⟩ => ⟨settledAll statements, location⟩

/-- The parts of a template with the places that their written form gives to calls and bindings. -/
def settledParts : List (Part Node) → List (Part Node)
  | [] => []
  | .text content :: rest => .text content :: settledParts rest
  | .expression node :: rest => .expression (settled node) :: settledParts rest

end

@[simp]
theorem settledAll_eq_map (nodes : List Node) : settledAll nodes = nodes.map settled := by
  induction nodes with
  | nil => rfl
  | cons node rest ih => simp [settledAll, ih]

theorem relocate_map_settled {move : Location → Location} {nodes : List Node}
    (each : ∀ node ∈ nodes, node.settled.relocate move = node.relocate move) :
    (nodes.map settled).map (relocate move) = nodes.map (relocate move) := by
  simpa using each

theorem relocateBlock_settled {move : Location → Location} {block : Block Node}
    (each : ∀ node ∈ block.statements, node.settled.relocate move = node.relocate move) :
    relocateBlock move (settledBlock block) = relocateBlock move block := by
  cases block
  simp only [settledBlock, relocateBlock, settledAll_eq_map, relocateAll_eq_map,
    relocate_map_settled each]

theorem relocateParts_settled {move : Location → Location} {parts : List (Part Node)}
    (each : ∀ node, .expression node ∈ parts → node.settled.relocate move = node.relocate move) :
    relocateParts move (settledParts parts) = relocateParts move parts := by
  induction parts with
  | nil => rfl
  | cons part rest ih =>
      have others := ih fun node found => each node (List.mem_cons_of_mem _ found)
      cases part with
      | text content => simp [settledParts, relocateParts, others]
      | expression node =>
          simp [settledParts, relocateParts, others, each node List.mem_cons_self]

/-- Settling changes nothing but places. -/
theorem unplaced_settled (node : Node) : node.settled.unplaced = node.unplaced := by
  unfold unplaced
  induction node using Node.induction with
  | identifier | integer | float | boolean | unit => rfl
  | template parts location ih => simp [settled, relocate, relocateParts_settled ih]
  | list elements location ih => simpa [settled, relocate] using ih
  | tuple elements location ih => simpa [settled, relocate] using ih
  | range low high location low_ih high_ih => simp [settled, relocate, low_ih, high_ih]
  | binary operator left right location left_ih right_ih =>
      simp [settled, relocate, left_ih, right_ih]
  | unary operator operand location ih => simp [settled, relocate, ih]
  | call callee arguments location callee_ih ih => simpa [settled, relocate, callee_ih] using ih
  | conditional condition thenBranch elseBranch location condition_ih then_ih else_ih =>
      simp [settled, relocate, condition_ih, then_ih, else_ih]
  | lambda parameters body location ih => simp [settled, relocate, relocateBlock_settled ih]
  | binding pattern value declares location ih => simp [settled, relocate, ih]
  | update name operator value location ih => simp [settled, relocate, ih]
  | forLoop pattern iterable body location iterable_ih ih =>
      simp [settled, relocate, iterable_ih, relocateBlock_settled ih]
  | whileLoop condition body location condition_ih ih =>
      simp [settled, relocate, condition_ih, relocateBlock_settled ih]
  | block inner ih => simp [settled, relocate, relocateBlock_settled ih]

end Node

namespace Tree

/-! ## Legible nodes -/

/-- Tokens that make a branch of a conditional wherever commas may stand, also after an `else`. -/
structure ReadsAsBranch (interpolate : List Token → Except Defect Node) (statement : Bool)
    (tokens : List Token) (node : Node) : Prop where
  starts : StartsWith (fun kind => kind ≠ .colon ∧ (kind = .ifWord → statement = true)) tokens
  branch : ∀ commas, ReadsBranch interpolate statement commas tokens node

/-- The written form of a node is read where the node stands. -/
def Legible (interpolate : List Token → Except Defect Node) (trailing : Bool) (node : Node) :
    Position → Prop
  | .operand => ReadsOperand interpolate (node.operand trailing) node.settled
  | .branch =>
    ReadsAsBranch interpolate false (node.asBranch (node.tokens trailing)) node.settled
  | .statement => ReadsStatement interpolate (node.tokens trailing) node.settled
  | .clause => ReadsAsBranch interpolate true (node.asBranch (node.tokens trailing)) node.settled

section Legible

variable {interpolate : List Token → Except Defect Node} {trailing : Bool}

theorem ReadsOperand.asBranch {tokens : List Token} {node : Node}
    (reads : ReadsOperand interpolate tokens node) (statement : Bool)
    (quiet : bindsNext tokens = false) : ReadsAsBranch interpolate statement tokens node where
  starts := reads.starts.mono fun kind start => by cases kind <;> simp_all [startsOperand]
  branch commas := reads.branch statement commas fun _ => quiet

/-- An expression that can be read in parentheses is legible as an operand and as a branch. -/
theorem Legible.ofOperand {node : Node} (fits : node.fits .operand)
    (reads : ReadsOperand interpolate (node.operand trailing) node.settled)
    (statement : ReadsStatement interpolate (node.tokens trailing) node.settled)
    (position : Position) : Legible interpolate trailing node position := by
  have quiet : bindsNext (node.operand trailing) = false :=
    bindsNext_enclosed node (bindsNext_tokens trailing node fits)
  have asBranch : node.asBranch (node.tokens trailing) = node.operand trailing := if_pos fits
  cases position with
  | operand => exact reads
  | statement => exact statement
  | branch =>
      rw [Legible, asBranch]
      exact reads.asBranch false quiet
  | clause =>
      rw [Legible, asBranch]
      exact reads.asBranch true quiet

/-- An atomic node is legible everywhere if it can be read as an operand. -/
theorem Legible.ofAtomic {node : Node} (fits : node.fits .operand) (atomic : node.isAtomic)
    (reads : ReadsOperand interpolate (node.tokens trailing) node.settled) (position : Position) :
    Legible interpolate trailing node position := by
  have same : node.operand trailing = node.tokens trailing := if_pos atomic
  refine Legible.ofOperand fits (same ▸ reads) (.ofExpression ?_ ?_ ?_) position
  · exact reads.starts.mono fun kind start => by
      cases kind <;> simp_all [startsOperand, endsStatement]
  · exact bindsNext_tokens trailing node fits
  · exact (reads.expression true).mono fun _ follows => follows.1

/-- The tokens that an expression can start with, a conditional apart. -/
def startsExpression (kind : Kind) : Bool :=
  startsOperand kind || decide (kind = .minus ∨ kind = .not ∨ kind = .fnWord)

theorem startsExpression_spec {kind : Kind} (starts : startsExpression kind) :
    (endsStatement kind = false ∧ kind ≠ .forWord ∧ kind ≠ .whileWord ∧ kind ≠ .ifWord) ∧
      kind ≠ .rightParen := by
  cases kind <;> simp_all [startsExpression, startsOperand, endsStatement]

theorem ReadsOperand.startsExpression {tokens : List Token} {node : Node}
    (reads : ReadsOperand interpolate tokens node) (rest : List Token) :
    StartsWith (fun kind => Tree.startsExpression kind) (tokens ++ rest) :=
  (reads.starts.append rest).mono fun kind start => by simp [Tree.startsExpression, start]

/-- A compound expression is legible everywhere if it can be read as an expression. -/
theorem Legible.ofCompound {node : Node} (fits : node.fits .operand)
    (compound : node.isAtomic = false)
    (starts : StartsWith (fun kind => startsExpression kind) (node.tokens trailing))
    (reads : ∀ commas, Reads interpolate (parseExpression · interpolate commas)
      (fun kind => closes kind ∧ kind ≠ .comma) (node.tokens trailing) node.settled)
    (position : Position) : Legible interpolate trailing node position := by
  have same : node.operand trailing =
      bracketed .leftParen .rightParen node.location (node.tokens trailing) := by
    simp [Node.operand, Node.enclosed, compound]
  refine Legible.ofOperand fits ?_ (.ofExpression ?_ ?_ (reads true)) position
  · rw [same]
    refine ReadsOperand.grouped node.location
      (starts.mono fun _ start => (startsExpression_spec start).2) ?_
    exact (reads false).mono fun _ same => by simp [same, closes]
  · exact starts.mono fun _ start => (startsExpression_spec start).1
  · exact bindsNext_tokens trailing node fits

/-- A binding or an update is legible where bindings may stand. -/
theorem Legible.ofBinding {node : Node} (other : node.fits .operand = false)
    (starts : StartsWith (fun kind => inPattern kind = true) (node.tokens trailing))
    (binding : ∀ rest, startsBinding (node.tokens trailing ++ rest) = true)
    (reads : Reads interpolate parseBinding (fun kind => closes kind) (node.tokens trailing)
      node.settled) {position : Position} (allowed : position.allowsBinding) :
    Legible interpolate trailing node position := by
  have bare : node.asBranch (node.tokens trailing) = node.tokens trailing := by
    simp [Node.asBranch, other]
  cases position with
  | operand | branch => simp [Position.allowsBinding] at allowed
  | statement => exact ReadsStatement.ofBinding starts binding reads
  | clause =>
      rw [Legible, bare]
      exact ⟨starts.mono fun kind inside => by cases kind <;> simp_all [inPattern],
        fun commas => ReadsBranch.ofBinding starts binding reads commas⟩

/-- A conditional is legible if its condition and its branches are. -/
theorem Legible.conditional {condition thenBranch elseBranch : Node} (location : Location)
    (readsCondition : Legible interpolate trailing condition .operand)
    (readsThen : ∀ {place}, thenBranch.fits place → Legible interpolate trailing thenBranch place)
    (readsElse : ∀ {place}, elseBranch.fits place → Legible interpolate trailing elseBranch place)
    {position : Position}
    (fits : (Node.conditional condition thenBranch elseBranch location).fits position) :
    Legible interpolate trailing (.conditional condition thenBranch elseBranch location)
      position := by
  set node := Node.conditional condition thenBranch elseBranch location with isNode
  have starts : StartsWith (· = .ifWord) (node.tokens trailing) :=
    ⟨_, _, by rw [isNode, Node.tokens], rfl⟩
  have branches {place : Position} (fits : node.fits place) :
      thenBranch.fits place.inner ∧ elseBranch.fits place.inner := by
    rw [isNode, Node.fits, Bool.and_eq_true, Bool.and_eq_true] at fits
    exact fits.2
  have statement (fits : node.fits .statement) (commas : Bool) :
      Reads interpolate (parseConditional · true commas) (fun kind => endsBranch true kind)
        (node.tokens trailing) node.settled := by
    have readsThen := readsThen (branches fits).1
    have readsElse := readsElse (branches fits).2
    exact reads_conditional location readsCondition (readsThen.branch commas) readsElse.starts
      (readsElse.branch commas)
  have expression (fits : node.fits .operand) (commas : Bool) :
      Reads interpolate (parseExpression · interpolate commas) (fun kind => closes kind)
        (node.tokens trailing) node.settled := by
    have readsThen := readsThen (branches fits).1
    have readsElse := readsElse (branches fits).2
    refine reads_expression_of_primary (starts.mono fun _ same => by simp [same]) ?_
    intro count rest bound follows
    have inner := reads_conditional location readsCondition (readsThen.branch commas)
      readsElse.starts (readsElse.branch commas) count rest bound follows
    have start := starts.head rest
    simp [parsePrimary, start]
    exact inner
  have operand (fits : node.fits .operand) :
      ReadsOperand interpolate (node.operand trailing) node.settled :=
    ReadsOperand.grouped location (starts.mono fun _ same => by simp [same])
      ((expression fits false).mono fun _ same => by simp [same, closes])
  have asBranch (fits : node.fits .operand) (statement : Bool) :
      ReadsAsBranch interpolate statement (node.asBranch (node.tokens trailing)) node.settled := by
    rw [Node.asBranch, if_pos fits]
    exact (operand fits).asBranch statement
      (bindsNext_enclosed node (bindsNext_tokens trailing node fits))
  cases position with
  | operand => exact operand fits
  | branch => exact asBranch fits false
  | statement => exact ReadsStatement.ofConditional starts (statement fits true)
  | clause =>
      by_cases isExpression : node.fits .operand
      · exact asBranch isExpression true
      · rw [Legible, Node.asBranch, if_neg isExpression]
        exact ⟨starts.mono fun _ same => by simp [same],
          fun commas => ReadsBranch.ofConditional starts (statement fits commas)⟩

end Legible

/-! ## Interpolations -/

variable {trailing : Bool}

theorem opensBlock_last_operand (node : Node) {token : Token}
    (last : (node.operand trailing).getLast? = some token) :
    Layout.opensBlock token.kind = false := by
  have closing {opening closing : Kind} {location : Location} {tokens : List Token}
      (quiet : Layout.opensBlock closing = false)
      (last : (bracketed opening closing location tokens).getLast? = some token) :
      Layout.opensBlock token.kind = false := by
    rw [bracketed, ← List.cons_append, List.getLast?_concat, Option.some.injEq] at last
    rwa [← last]
  by_cases atomic : node.isAtomic
  · rw [Node.operand, Node.enclosed, if_pos atomic] at last
    cases node <;> try simp [Node.isAtomic] at atomic
    case boolean value location =>
      cases last
      cases value <;> rfl
    case unit | list | tuple => exact closing rfl last
    all_goals
      cases last
      rfl
  · rw [Node.operand, Node.enclosed, if_neg atomic] at last
    exact closing rfl last

theorem parseInterpolation_operand {depth : Nat} {node : Node}
    (reads : Legible (parseInterpolation depth) trailing node .operand) (location : Location) :
    parseInterpolation (depth + 1) (node.operand trailing ++ [.inserted .endOfFile location]) =
      .ok node.settled := by
  have layout : Layout.normalize (node.operand trailing ++ [.inserted .endOfFile location]) =
      .ok (node.operand trailing ++ [.inserted .endOfFile location]) :=
    Layout.normalize_line (Node.plain_enclosed node (Node.plain_tokens trailing node)) rfl
      fun _ last => opensBlock_last_operand node last
  have inner := (reads.expression true).below (·.expression true) (fun _ => rfl)
    ((node.operand trailing).length + 2) [.inserted .endOfFile location] (by simp) rfl
  simp [parseInterpolation, layout, runRule, inner]

/-! ## The round trip -/

/-- The written form of a node is read wherever the node fits, if interpolations are read at least
as deep as they nest. -/
def Readable (trailing : Bool) (node : Node) : Prop :=
  ∀ depth position, Token.NestWithin depth (node.tokens trailing) → node.fits position →
    Legible (parseInterpolation depth) trailing node position

section Readable

variable {depth : Nat}

theorem Readable.operand {node : Node} (readable : Readable trailing node)
    (nests : Token.NestWithin depth (node.operand trailing)) (fits : node.fits .operand) :
    ReadsOperand (parseInterpolation depth) (node.operand trailing) node.settled :=
  readable _ _ (nests.part (Node.subset_enclosed node _)) fits

theorem Readable.operands {nodes : List Node} (readable : ∀ node ∈ nodes, Readable trailing node)
    (nests : ∀ tokens ∈ Node.operands trailing nodes, Token.NestWithin depth tokens)
    (fits : Node.fitAll nodes .operand) :
    List.Forall₂ (ReadsOperand (parseInterpolation depth)) (Node.operands trailing nodes)
      (Node.settledAll nodes) := by
  rw [Node.fitAll_eq_all, List.all_eq_true] at fits
  rw [Node.operands_eq_map, List.forall_mem_map] at nests
  rw [Node.operands_eq_map, Node.settledAll_eq_map, List.forall₂_map_left_iff,
    List.forall₂_map_right_iff, List.forall₂_same]
  exact fun node found => (readable node found).operand (nests node found) (fits node found)

theorem Readable.statements {nodes : List Node} (readable : ∀ node ∈ nodes, Readable trailing node)
    (nests : ∀ node ∈ nodes, Token.NestWithin depth (node.tokens trailing))
    (fits : Node.fitAll nodes .statement) :
    List.Forall₂ (ReadsStatement (parseInterpolation depth)) (Node.statementLists trailing nodes)
      (Node.settledAll nodes) := by
  rw [Node.fitAll_eq_all, List.all_eq_true] at fits
  rw [Node.statementLists_eq_map, Node.settledAll_eq_map, List.forall₂_map_left_iff,
    List.forall₂_map_right_iff, List.forall₂_same]
  exact fun node found => readable node found _ _ (nests node found) (fits node found)

theorem Readable.block {block : Block Node}
    (readable : ∀ node ∈ block.statements, Readable trailing node)
    (nests : Token.NestWithin depth (Node.blockTokens trailing block))
    (fits : Node.blockFits block) :
    Reads (parseInterpolation depth) parseBlock (fun _ => True) (Node.blockTokens trailing block)
      (Node.settledBlock block) := by
  have each node (found : node ∈ block.statements) := nests.part (Node.subset_blockTokens found)
  cases block
  rw [Node.blockTokens, Node.settledBlock]
  exact reads_block trailing _ (Readable.statements readable each fits)

theorem Readable.parts {parts : List (Part Node)}
    (readable : ∀ node, .expression node ∈ parts → Readable trailing node)
    (nests : Token.depthOfSegments (Node.segments trailing parts) ≤ depth)
    (fits : Node.partsFit parts) :
    parseParts (parseInterpolation depth) (Node.segments trailing parts) =
      .ok (Node.settledParts parts) := by
  induction parts with
  | nil => rfl
  | cons part rest ih =>
      have others := ih fun node found => readable node (List.mem_cons_of_mem _ found)
      cases part with
      | text content => simp [Node.segments, parseParts, others nests fits, Node.settledParts]
      | expression node =>
          rw [Node.segments, Token.depthOfSegments, Nat.max_le] at nests
          rw [Node.partsFit, Bool.and_eq_true] at fits
          obtain ⟨smaller, rfl⟩ := Nat.exists_eq_succ_of_ne_zero (Nat.ne_zero_of_lt nests.1)
          have inside := Token.depthOfTokens_le.mp (Nat.le_of_succ_le_succ nests.1)
          have first := parseInterpolation_operand ((readable node List.mem_cons_self).operand
            (inside.part (List.subset_append_left _ _)) fits.1) node.location
          rw [Node.operand] at first
          simp [Node.segments, parseParts, first, others nests.2 fits.2, Node.settledParts]

end Readable

theorem startsWith_blockTokens (block : Block Node) :
    StartsWith (· = .blockStart) (Node.blockTokens trailing block) := by
  cases block
  exact ⟨_, _, by rw [Node.blockTokens, Rendering.block], rfl⟩

/-- Every node is read wherever it fits. -/
theorem readable (node : Node) : Readable trailing node := by
  induction node using Node.induction with
  | identifier name location =>
      exact fun _ _ _ _ => .ofAtomic rfl rfl (.identifier name location) _
  | integer value location => exact fun _ _ _ _ => .ofAtomic rfl rfl (.integer value location) _
  | float value location => exact fun _ _ _ _ => .ofAtomic rfl rfl (.float value location) _
  | boolean value location => exact fun _ _ _ _ => .ofAtomic rfl rfl (.boolean value location) _
  | unit location => exact fun _ _ _ _ => .ofAtomic rfl rfl (.unit location) _
  | template parts location ih =>
      intro depth position nests fits
      have reads := Readable.parts ih (nests _ List.mem_cons_self) fits
      exact .ofAtomic fits rfl (.template location reads) position
  | list elements location ih =>
      intro depth position nests fits
      have inner := nests.part (Node.subset_bracketed ..)
      have each := Readable.operands ih
        (fun _ found => inner.part (Node.subset_separated location found)) fits
      exact .ofAtomic fits rfl (.list location each) position
  | tuple elements location ih =>
      intro depth position nests fits
      have inner := nests.part (Node.subset_bracketed ..)
      obtain ⟨nonempty, elementsFit⟩ := Bool.and_eq_true_iff.mp fits
      have each := Readable.operands ih
        (fun _ found => inner.part (Node.subset_tupleElements location found)) elementsFit
      exact .ofAtomic fits rfl (.tuple location each (by simpa using nonempty)) position
  | range low high location low_ih high_ih =>
      intro depth position nests fits
      obtain ⟨lowFits, highFits⟩ := Bool.and_eq_true_iff.mp fits
      rw [Node.tokens, Token.nestWithin_append, Token.nestWithin_cons] at nests
      have readsLow := low_ih.operand nests.1 lowFits
      have readsHigh := high_ih.operand nests.2.2 highFits
      have binds : 0 < precedence .doubleDot := by decide
      refine .ofCompound fits rfl (readsLow.startsExpression _) (fun commas => ?_) position
      exact (readsLow.operatorExpression readsHigh binds location commas).mono fun _ follows =>
        follows.1
  | binary operator left right location left_ih right_ih =>
      intro depth position nests fits
      obtain ⟨leftFits, rightFits⟩ := Bool.and_eq_true_iff.mp fits
      rw [Node.tokens, Token.nestWithin_append, Token.nestWithin_cons] at nests
      have readsLeft := left_ih.operand nests.1 leftFits
      have readsRight := right_ih.operand nests.2.2 rightFits
      have binds : 0 < precedence operator.kind := by cases operator <;> decide
      refine .ofCompound fits rfl (readsLeft.startsExpression _)
        (fun commas => ?_) position
      have reads := readsLeft.operatorExpression readsRight binds location commas
      have same (left right : Node) : binaryNode operator.kind left right location =
          .binary operator left right location := by cases operator <;> rfl
      rw [same] at reads
      exact reads.mono fun _ follows => follows.1
  | unary operator operand location ih =>
      intro depth position nests fits
      rw [Node.tokens, Token.nestWithin_cons] at nests
      have reads := ih.operand nests.2 fits
      have starts : startsExpression operator.kind := by cases operator <;> rfl
      have fitsOperand : (Node.unary operator operand location).fits .operand := fits
      refine .ofCompound fitsOperand rfl ⟨_, _, rfl, starts⟩ (fun commas => ?_) position
      refine (reads_expression_of_unary (reads_prefixed operator location (reads.unary commas))
        fun _ closing => (closes_spec closing).1).mono fun _ follows => follows.1
  | call callee arguments location callee_ih ih =>
      intro depth position nests fits
      obtain ⟨calleeFits, argumentsFit⟩ := Bool.and_eq_true_iff.mp fits
      rw [Node.tokens, Token.nestWithin_append] at nests
      have readsCallee := callee_ih.operand nests.1 calleeFits
      have each := Readable.operands ih
        (fun _ found => nests.2.part (Node.subset_asArguments location found)) argumentsFit
      refine .ofCompound fits rfl (readsCallee.startsExpression _) (fun commas => ?_) position
      cases arguments with
      | nil =>
          have marked := readsCallee.marked location (reads_arguments_nil _ commas)
          refine (reads_expression_of_unary marked fun _ closing => ?_).mono
            fun _ follows => follows.1
          exact ⟨(closes_spec closing).1, (closes_spec closing).2.2.1⟩
      | cons first others =>
          have call := readsCallee.call each (by simp [Node.settledAll]) commas
          exact reads_expression_of_closed
            (call.mono fun _ follows => ⟨endsArguments_of_closes follows.1, follows.2⟩)
            fun _ follows => follows.1
  | conditional condition thenBranch elseBranch location condition_ih then_ih else_ih =>
      intro depth position nests fits
      simp only [Node.tokens, Token.nestWithin_append, Token.nestWithin_cons] at nests
      obtain ⟨-, conditionNests, -, thenNests, -, elseNests⟩ := nests
      exact .conditional location
        (condition_ih.operand conditionNests (Bool.and_eq_true_iff.mp fits).1)
        (then_ih _ _ (thenNests.part (Node.subset_asBranch thenBranch _)))
        (else_ih _ _ (elseNests.part (Node.subset_asBranch elseBranch _))) fits
  | lambda parameters body location ih =>
      intro depth position nests fits
      simp only [Node.tokens, Token.nestWithin_append, Token.nestWithin_cons] at nests
      obtain ⟨-, -, -, bodyNests⟩ := nests
      obtain ⟨parametersFit, bodyFits⟩ := Bool.and_eq_true_iff.mp fits
      have readsBody := Readable.block ih bodyNests bodyFits
      refine .ofCompound fits rfl ⟨_, _, rfl, rfl⟩ (fun commas => ?_) position
      have reads := reads_lambda (List.all_eq_true.mp parametersFit) location
        (startsWith_blockTokens body) readsBody commas
      rw [Node.tokens, Pattern.tokenLists_eq_map, Node.settled]
      exact (reads_expression_of_primary ⟨_, _, rfl, by simp⟩ (reads.mono fun _ _ => trivial)).mono
        fun _ follows => follows.1
  | binding pattern value declares location ih =>
      intro depth position nests fits
      simp only [Node.tokens, Token.nestWithin_append, Token.nestWithin_cons] at nests
      obtain ⟨allowed, inner⟩ := Bool.and_eq_true_iff.mp fits
      obtain ⟨patternFits, valueFits⟩ := Bool.and_eq_true_iff.mp inner
      have reads := reads_binding patternFits (ih.operand nests.2.2 valueFits) declares location
      refine .ofBinding rfl ?_ (fun rest => ?_) reads allowed
      · refine ((pattern_startsWith pattern).append _).mono fun kind start => ?_
        rcases start with rfl | rfl <;> rfl
      · rw [Node.tokens, List.append_assoc]
        exact startsBinding_pattern pattern declares location _
  | update name operator value location ih =>
      intro depth position nests fits
      simp only [Node.tokens, Token.nestWithin_cons] at nests
      obtain ⟨allowed, valueFits⟩ := Bool.and_eq_true_iff.mp fits
      have reads := reads_update name operator (ih.operand nests.2.2 valueFits) location
      refine .ofBinding rfl ⟨_, _, rfl, rfl⟩ (fun rest => ?_) reads allowed
      cases operator <;> rfl
  | forLoop pattern iterable body location iterable_ih ih =>
      intro depth position nests fits
      simp only [Node.tokens, Token.nestWithin_append, Token.nestWithin_cons] at nests
      obtain ⟨-, -, -, iterableNests, -, bodyNests⟩ := nests
      simp only [Node.fits, Bool.and_eq_true, decide_eq_true_eq] at fits
      obtain ⟨rfl, patternFits, iterableFits, bodyFits⟩ := fits
      exact ReadsStatement.forLoop patternFits location
        (iterable_ih.operand iterableNests iterableFits) (startsWith_blockTokens body)
        (Readable.block ih bodyNests bodyFits)
  | whileLoop condition body location condition_ih ih =>
      intro depth position nests fits
      simp only [Node.tokens, Token.nestWithin_append, Token.nestWithin_cons] at nests
      obtain ⟨-, conditionNests, -, bodyNests⟩ := nests
      simp only [Node.fits, Bool.and_eq_true, decide_eq_true_eq] at fits
      obtain ⟨rfl, conditionFits, bodyFits⟩ := fits
      exact ReadsStatement.whileLoop location (condition_ih.operand conditionNests conditionFits)
        (startsWith_blockTokens body) (Readable.block ih bodyNests bodyFits)
  | block inner ih =>
      intro depth position nests fits
      obtain ⟨allowed, innerFits⟩ := Bool.and_eq_true_iff.mp fits
      have reads := Readable.block ih nests innerFits
      have starts : StartsWith (· = .blockStart) (Node.blockTokens trailing inner) :=
        startsWith_blockTokens inner
      have asBranch (statement : Bool) :
          ReadsAsBranch (parseInterpolation depth) statement (Node.blockTokens trailing inner)
            (Node.settled (.block inner)) :=
        ⟨starts.mono fun _ same => by simp [same],
          fun commas => .ofBlock starts reads statement commas⟩
      cases position with
      | operand | statement => simp [Position.allowsBlock] at allowed
      | branch => exact asBranch false
      | clause => exact asBranch true

/-- The program that is read from the tokens of a program. -/
theorem parse_eq_settled (trailing : Bool) {statements : List Node}
    (fits : Node.fitAll statements .statement) (location last : Location) :
    parse (Program.tokens trailing ⟨statements, location⟩ last) =
      .ok ⟨Node.settledAll statements,
        (headToken (Program.tokens trailing ⟨statements, location⟩ last)).location⟩ := by
  set tokens := Program.tokens trailing ⟨statements, location⟩ last with areTokens
  have nests : Token.NestWithin (Token.depthOfTokens tokens) tokens :=
    Token.depthOfTokens_le.mp (Nat.le_refl _)
  rw [areTokens, Program.tokens, Token.nestWithin_append] at nests
  have each := Readable.statements (fun node _ => readable node)
    (fun _ found => nests.1.part
      (Node.subset_statements trailing location (List.mem_map_of_mem found))) fits
  have reads := (reads_statements trailing location .endOfFile rfl (by decide) each).below
    (·.statements .endOfFile) (fun _ => rfl) (tokens.length + 1) [.inserted .endOfFile last]
    (by simp [areTokens, Program.tokens]) rfl
  rw [Node.statementLists_eq_map] at reads
  simp [parse, runRule, areTokens, Program.tokens] at reads ⊢
  simp [reads]

/-- Parsing inverts rendering: the tokens of a tree of the grammar without chains are parsed to the
same tree, but for the places of its nodes. -/
theorem parse_tokens (trailing : Bool) (program : Program) (built : program.Built false)
    (last : Location) :
    ∃ read, parse (program.tokens trailing last) = .ok read ∧ read.unplaced = program.unplaced := by
  have fits := program.built_iff_fits.mp built
  obtain ⟨statements, location⟩ := program
  refine ⟨_, parse_eq_settled trailing fits location last, ?_⟩
  simp only [Program.unplaced, Node.relocateBlock, Node.settledAll_eq_map, Node.relocateAll_eq_map]
  rw [Node.relocate_map_settled fun node _ => Node.unplaced_settled node]

/-- A conditional over bindings, and a loop with a function of two statements in a template. -/
def sampleProgram : Program :=
  let here := Location.start none
  let pair := Pattern.tuple [.name "a" here, .name "b" here] here
  let twice := Node.lambda [.name "x" here, pair] ⟨[.identifier "x" here, .unit here], here⟩ here
  ⟨[.conditional (.call (.identifier "ready" here) [] here)
      (.binding pair (.tuple [.integer 1 here] here) true here)
      (.block ⟨[.update "a" .append (.unary .negate (.identifier "b" here) here) here], here⟩) here,
    .forLoop (.name "i" here) (.range (.integer 0 here) (.identifier "n" here) here)
      ⟨[.template [.text "i", .expression (.call twice [.identifier "i" here] here)] here], here⟩
      here], here⟩

theorem parse_tokens_sampleProgram : sampleProgram.Built false ∧
    ∃ read, parse (sampleProgram.tokens false (.start none)) = .ok read ∧
      read.unplaced = sampleProgram.unplaced :=
  ⟨by decide, parse_tokens false sampleProgram (by decide) (.start none)⟩

/-- The tokens of `if c then x := 1 else z .f`. -/
def chainedTokens : List Token :=
  let here := Location.start none
  let name (word : String) : Token := ⟨.identifier, .text word, here⟩
  [.fixed .ifWord here, name "c", .fixed .thenWord here, name "x", .fixed .declare here,
    ⟨.integer, .integer 1, here⟩, .fixed .elseWord here, name "z", .fixed .dot here, name "f",
    .inserted .endOfFile here]

/-- A call that takes a conditional over a binding. -/
def chainedConditional : Program :=
  let here := Location.start none
  ⟨[.call (.identifier "f" here)
      [.conditional (.identifier "c" here) (.binding (.name "x" here) (.integer 1 here) true here)
        (.identifier "z" here) here] here], here⟩

/-- A chain is no longer read once its conditional stands in parentheses, where the branches are
expressions or blocks. -/
theorem unread_chainedConditional : parse chainedTokens = .ok chainedConditional ∧
    ∀ trailing, ¬∃ read, parse (chainedConditional.tokens trailing (.start none)) = .ok read ∧
      read.unplaced = chainedConditional.unplaced := by
  refine ⟨rfl, fun trailing ⟨read, parsed, _⟩ => ?_⟩
  have fails : (parse (chainedConditional.tokens trailing (.start none))).isOk = false := by
    cases trailing <;> decide
  rw [parsed] at fails
  cases fails

end Tree

end Offside
