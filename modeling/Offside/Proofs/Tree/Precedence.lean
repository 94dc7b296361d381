import Offside.Proofs.Tree.RoundTrip

/-!
# Precedence and associativity

An expression of operators is written without redundant parentheses: around a left operand that
binds looser than the operator after it, around a right operand that does not bind tighter than the
operator before it, and around an operator between two operands that stands after a prefix operator.
Reading these tokens gives the expression back, so operators of one level associate to the left and
those of different levels nest by precedence.
-/

namespace Offside

open Rendering
open Token (Kind)

/-- How tightly an operator binds, from the loosest on. The range dots are between the comparisons
and the sums. -/
def BinaryOperator.level : BinaryOperator → Nat
  | or => 1
  | and => 2
  | equal | notEqual => 3
  | less | greater | lessEqual | greaterEqual => 4
  | add | subtract | concat => 6
  | multiply | divide | floorDivide | modulo => 7

namespace Node

/-- The level of the range dots. -/
def rangeLevel : Nat := 5

/-- The level of everything that is no operator between two operands: above all of these. -/
def operandLevel : Nat := 8

/-- How tightly the outermost operator of an expression binds. -/
def level : Node → Nat
  | .binary operator _ _ _ => operator.level
  | .range _ _ _ => rangeLevel
  | _ => operandLevel

/-- Expressions of prefix operators, operators between two operands and range dots over names,
literals and what else needs no parentheses. -/
def isOperation : Node → Bool
  | .unary _ operand _ => operand.isOperation
  | .binary _ left right _ => left.isOperation && right.isOperation
  | .range low high _ => low.isOperation && high.isOperation
  | node => node.isAtomic && node.fits .operand

/-- The tokens of an expression, in parentheses if these are needed. -/
def grouped (node : Node) (needed : Bool) (tokens : List Token) : List Token :=
  if needed then bracketed .leftParen .rightParen node.location tokens else tokens

/-- The tokens of an expression of operators with parentheses only where they are needed. -/
def concise (trailing : Bool) : Node → List Token
  | .unary operator operand location =>
    .fixed operator.kind location ::
      operand.grouped (operand.level < operandLevel) (operand.concise trailing)
  | .binary operator left right location =>
    left.grouped (left.level < operator.level) (left.concise trailing) ++
      .fixed operator.kind location ::
        right.grouped (right.level ≤ operator.level) (right.concise trailing)
  | .range low high location =>
    low.grouped (low.level < rangeLevel) (low.concise trailing) ++
      .fixed .doubleDot location ::
        high.grouped (high.level ≤ rangeLevel) (high.concise trailing)
  | node => node.tokens trailing

theorem subset_grouped (node : Node) (needed : Bool) (tokens : List Token) :
    tokens ⊆ node.grouped needed tokens := by
  unfold grouped bracketed
  split <;> simp

end Node

namespace Tree

theorem precedence_kind (operator : BinaryOperator) :
    precedence operator.kind = operator.level := by
  cases operator <;> rfl

theorem binaryNode_kind (operator : BinaryOperator) (left right : Node) (location : Location) :
    binaryNode operator.kind left right location = .binary operator left right location := by
  cases operator <;> rfl

theorem level_bounds (operator : BinaryOperator) :
    0 < operator.level ∧ operator.level < Node.operandLevel := by
  cases operator <;> decide

theorem level_pos (node : Node) : 0 < node.level := by
  cases node with
  | binary operator => exact (level_bounds operator).1
  | _ => exact Nat.zero_lt_succ _

/-! ## Climbing -/

/-- Tokens whose outermost operator has the given level are taken in as the operand `node`, whatever
is done with the operators after them, provided that these bind no tighter. -/
def Climbs (interpolate : List Token → Except Defect Node) (level : Nat) (tokens : List Token)
    (node : Node) : Prop :=
  ∀ commas minimum rest outcome, minimum < level → precedence (headToken rest).kind ≤ level →
    (headToken rest).kind ≠ .bang →
    (∀ count, rest.length ≤ count →
      parseBinaryTail (.ofNat interpolate count) commas minimum node rest = outcome) →
    ∀ count, (tokens ++ rest).length ≤ count →
      parseBinary (.ofNat interpolate count) interpolate commas minimum (tokens ++ rest) = outcome

section Climbing

variable {interpolate : List Token → Except Defect Node} {level : Nat} {tokens : List Token}
  {node : Node}

theorem Climbs.ofUnary
    (reads : ∀ commas,
      Reads interpolate (parseUnary · interpolate commas) (· ≠ .bang) tokens node) :
    Climbs interpolate level tokens node := by
  intro commas minimum rest outcome _ _ notBang done count bound
  have operand : parseUnary (.ofNat interpolate count) interpolate commas (tokens ++ rest) =
      .ok (node, rest) := reads commas count rest bound notBang
  rw [parseBinary, run_bind, operand, ok_bind]
  exact done count (by simp at bound; omega)

theorem Climbs.mono {wanted : Nat} (climbs : Climbs interpolate level tokens node)
    (looser : wanted ≤ level) : Climbs interpolate wanted tokens node :=
  fun commas minimum rest outcome less follows =>
    climbs commas minimum rest outcome (Nat.lt_of_lt_of_le less looser)
      (Nat.le_trans follows looser)

theorem Climbs.expression (climbs : Climbs interpolate level tokens node) (positive : 0 < level)
    (commas : Bool) :
    Reads interpolate (parseExpression · interpolate commas) (fun kind => closes kind) tokens
      node := by
  have reads : Reads interpolate (parseBinary · interpolate commas 0) (fun kind => closes kind)
      tokens node := by
    intro count rest bound closing
    have spec := closes_spec closing
    refine climbs commas 0 rest _ positive (by simp [spec.2.1]) spec.1 (fun count _ => ?_) count
      bound
    exact reads_binaryTail_nil interpolate commas 0 node count rest ‹_› (Nat.le_of_eq spec.2.1)
  exact reads_expression_of_binary reads fun _ closing => closing

/-- In parentheses every expression is an operand. -/
theorem Climbs.operand (climbs : Climbs interpolate level tokens node) (positive : 0 < level)
    (starts : StartsWith (fun kind => startsExpression kind) tokens) (location : Location) :
    ReadsOperand interpolate (bracketed .leftParen .rightParen location tokens) node :=
  .grouped location (starts.mono fun _ start => (startsExpression_spec start).2)
    ((climbs.expression positive false).mono fun _ same => by simp [same, closes])

/-- An operator takes in a left operand that binds no looser and a right operand that binds
tighter. -/
theorem Climbs.operator {kind : Kind} {leftLevel rightLevel : Nat} {left right : List Token}
    {leftNode rightNode : Node} (climbsLeft : Climbs interpolate leftLevel left leftNode)
    (climbsRight : Climbs interpolate rightLevel right rightNode) (binds : 0 < precedence kind)
    (noLooser : precedence kind ≤ leftLevel) (tighter : precedence kind < rightLevel)
    (location : Location) :
    Climbs interpolate (precedence kind) (left ++ .fixed kind location :: right)
      (binaryNode kind leftNode rightNode location) := by
  intro commas minimum rest outcome looser follows notBang done count bound
  have inner : kind ≠ .bang ∧ kind ≠ .endOfFile := by
    constructor <;> rintro rfl <;> simp [precedence] at binds
  rw [List.append_assoc, List.cons_append] at bound ⊢
  -- the left operand leaves the operator to the loop, which goes on with the right one
  refine climbsLeft commas minimum (.fixed kind location :: (right ++ rest)) outcome
    (Nat.lt_of_lt_of_le looser noLooser) noLooser inner.1 (fun count bound => ?_) count bound
  rw [List.length_cons] at bound
  obtain ⟨count, rfl⟩ := Nat.exists_eq_succ_of_ne_zero (Nat.ne_zero_of_lt bound)
  have readsRight : parseBinary (.ofNat interpolate count) interpolate commas (precedence kind)
      (right ++ rest) = .ok (rightNode, rest) := by
    refine climbsRight commas (precedence kind) rest _ tighter
      (Nat.le_of_lt (Nat.lt_of_le_of_lt follows tighter)) notBang (fun count bound => ?_) count
      (Nat.le_of_succ_le_succ bound)
    exact reads_binaryTail_nil interpolate commas (precedence kind) rightNode count rest bound
      follows
  have goesOn := done count (by simp at bound; omega)
  rw [parseBinaryTail, run_bind, run_peekKind, ok_bind, headToken_cons, Token.fixed_kind,
    if_neg (Nat.not_le_of_lt looser), run_bind, run_advance, Token.fixed_kind, if_neg inner.2,
    ok_bind, run_bind]
  change (parseBinary (.ofNat interpolate count) interpolate commas (precedence kind)
    (right ++ rest)).bind _ = outcome
  rw [readsRight]
  exact goesOn

end Climbing

/-! ## Reading concise expressions -/

theorem startsWith_grouped {node : Node} {tokens : List Token} (needed : Bool)
    (starts : StartsWith (fun kind => startsExpression kind) tokens) :
    StartsWith (fun kind => startsExpression kind) (node.grouped needed tokens) := by
  cases needed with
  | true => exact ⟨_, _, rfl, rfl⟩
  | false => exact starts

theorem bindsNext_grouped {node : Node} {tokens : List Token} (needed : Bool)
    (quiet : bindsNext tokens = false) : bindsNext (node.grouped needed tokens) = false := by
  cases needed with
  | true =>
      rw [Node.grouped, if_pos rfl, bracketed, bindsNext_cons_inside rfl]
      exact bindsNext_append _ _ quiet rfl
  | false => exact quiet

/-- With parentheses where its level falls short of the one that is wanted, an expression is taken
in wherever that level is. -/
theorem Climbs.grouped {interpolate : List Token → Except Defect Node} {level wanted : Nat}
    {tokens : List Token} {node result : Node} (climbs : Climbs interpolate level tokens result)
    (positive : 0 < level) (starts : StartsWith (fun kind => startsExpression kind) tokens)
    {needed : Bool} (enough : needed = false → wanted ≤ level) :
    Climbs interpolate wanted (node.grouped needed tokens) result := by
  cases needed with
  | true => exact .ofUnary (climbs.operand positive starts node.location).unary
  | false => exact climbs.mono (enough rfl)

variable {trailing : Bool} {depth : Nat}

/-- What is not one of the operators is an operand. -/
theorem readsOperand_of_atomic {node : Node} (atomic : node.isAtomic && node.fits .operand)
    (nests : Token.NestWithin depth (node.tokens trailing)) :
    ReadsOperand (parseInterpolation depth) (node.tokens trailing) node.settled := by
  obtain ⟨isAtomic, fits⟩ := Bool.and_eq_true_iff.mp atomic
  have same : node.operand trailing = node.tokens trailing := if_pos isAtomic
  have reads := (readable node).operand (same ▸ nests) fits
  rwa [same] at reads

theorem startsWith_concise {tree : Node} (operation : tree.isOperation) :
    StartsWith (fun kind => startsExpression kind) (tree.concise trailing) := by
  induction tree using Node.induction with
  | unary operator operand location _ =>
      exact ⟨_, _, rfl, by cases operator <;> rfl⟩
  | binary operator left right location left_ih _ =>
      exact (startsWith_grouped _ (left_ih (Bool.and_eq_true_iff.mp operation).1)).append _
  | range low high location low_ih _ =>
      exact (startsWith_grouped _ (low_ih (Bool.and_eq_true_iff.mp operation).1)).append _
  | _ =>
      have reads : ReadsOperand (parseInterpolation _) (Node.tokens trailing _) _ :=
        readsOperand_of_atomic operation (Token.depthOfTokens_le.mp (Nat.le_refl _))
      exact reads.starts.mono fun _ start => by simp [startsExpression, start]

theorem bindsNext_concise {tree : Node} (operation : tree.isOperation) :
    bindsNext (tree.concise trailing) = false := by
  induction tree using Node.induction with
  | unary operator operand location _ => cases operator <;> rfl
  | binary operator left right location left_ih _ =>
      refine bindsNext_append _ _
        (bindsNext_grouped _ (left_ih (Bool.and_eq_true_iff.mp operation).1)) ?_
      cases operator <;> rfl
  | range low high location low_ih _ =>
      exact bindsNext_append _ _
        (bindsNext_grouped _ (low_ih (Bool.and_eq_true_iff.mp operation).1)) rfl
  | _ => exact bindsNext_tokens trailing _ (Bool.and_eq_true_iff.mp operation).2

/-- An operator between two operands, with the parentheses that it needs, is taken in at its
precedence. -/
theorem climbs_between {kind : Kind} (binds : 0 < precedence kind) (location : Location)
    {left right : Node} (leftOperation : left.isOperation) (rightOperation : right.isOperation)
    (climbsLeft : Climbs (parseInterpolation depth) left.level (left.concise trailing) left.settled)
    (climbsRight :
      Climbs (parseInterpolation depth) right.level (right.concise trailing) right.settled) :
    Climbs (parseInterpolation depth) (precedence kind)
      (left.grouped (left.level < precedence kind) (left.concise trailing) ++
        .fixed kind location ::
          right.grouped (right.level ≤ precedence kind) (right.concise trailing))
      (binaryNode kind left.settled right.settled location) := by
  have before : Climbs (parseInterpolation depth) (precedence kind)
      (left.grouped (left.level < precedence kind) (left.concise trailing)) left.settled :=
    climbsLeft.grouped (level_pos left) (startsWith_concise leftOperation) fun bare =>
      Nat.le_of_not_lt (of_decide_eq_false bare)
  have after : Climbs (parseInterpolation depth) (precedence kind + 1)
      (right.grouped (right.level ≤ precedence kind) (right.concise trailing)) right.settled :=
    climbsRight.grouped (level_pos right) (startsWith_concise rightOperation) fun bare =>
      Nat.lt_of_not_le (of_decide_eq_false bare)
  exact before.operator after binds (Nat.le_refl _) (Nat.lt_succ_self _) location

/-- Every expression of operators is taken in at its level; one that is no operator between two
operands can stand after a prefix operator. -/
theorem climbs_concise {tree : Node} (operation : tree.isOperation)
    (nests : Token.NestWithin depth (tree.concise trailing)) :
    Climbs (parseInterpolation depth) tree.level (tree.concise trailing) tree.settled ∧
      (Node.operandLevel ≤ tree.level → ∀ commas, Reads (parseInterpolation depth)
        (parseUnary · (parseInterpolation depth) commas) (· ≠ .bang) (tree.concise trailing)
          tree.settled) := by
  induction tree using Node.induction with
  | unary operator operand location ih =>
      rw [Node.concise, Token.nestWithin_cons] at nests
      obtain ⟨climbs, tight⟩ := ih operation (nests.2.part (Node.subset_grouped ..))
      have reads (commas : Bool) : Reads (parseInterpolation depth)
          (parseUnary · (parseInterpolation depth) commas) (· ≠ .bang)
          (operand.grouped (operand.level < Node.operandLevel) (operand.concise trailing))
          operand.settled := by
        by_cases needed : operand.level < Node.operandLevel
        · rw [Node.grouped, if_pos (decide_eq_true needed)]
          exact (climbs.operand (level_pos operand) (startsWith_concise operation) _).unary commas
        · rw [Node.grouped, if_neg (by simpa using needed)]
          exact tight (Nat.le_of_not_lt needed) commas
      exact ⟨.ofUnary fun commas => reads_prefixed operator location (reads commas),
        fun _ commas => reads_prefixed operator location (reads commas)⟩
  | binary operator left right location left_ih right_ih =>
      obtain ⟨leftOperation, rightOperation⟩ := Bool.and_eq_true_iff.mp operation
      rw [Node.concise, Token.nestWithin_append, Token.nestWithin_cons] at nests
      have climbsLeft := (left_ih leftOperation (nests.1.part (Node.subset_grouped ..))).1
      have climbsRight := (right_ih rightOperation (nests.2.2.part (Node.subset_grouped ..))).1
      obtain ⟨positive, looser⟩ := level_bounds operator
      have climbs := climbs_between (precedence_kind operator ▸ positive) location leftOperation
        rightOperation climbsLeft climbsRight
      rw [binaryNode_kind, precedence_kind] at climbs
      exact ⟨climbs, fun tight => absurd tight (Nat.not_le_of_lt looser)⟩
  | range low high location low_ih high_ih =>
      obtain ⟨lowOperation, highOperation⟩ := Bool.and_eq_true_iff.mp operation
      rw [Node.concise, Token.nestWithin_append, Token.nestWithin_cons] at nests
      have climbsLow := (low_ih lowOperation (nests.1.part (Node.subset_grouped ..))).1
      have climbsHigh := (high_ih highOperation (nests.2.2.part (Node.subset_grouped ..))).1
      have binds : 0 < precedence .doubleDot := by decide
      have looser : Node.rangeLevel < Node.operandLevel := by decide
      exact ⟨climbs_between binds location lowOperation highOperation climbsLow climbsHigh,
        fun tight => absurd tight (Nat.not_le_of_lt looser)⟩
  | _ =>
      have reads := (readsOperand_of_atomic operation nests).unary
      exact ⟨.ofUnary reads, fun _ => reads⟩

/-- The tokens of an expression of operators, without redundant parentheses, are a program of which
the expression is the only statement. -/
theorem parse_concise (trailing : Bool) (tree : Node) (operation : tree.isOperation)
    (last : Location) :
    ∃ read, parse (tree.concise trailing ++ [.inserted .endOfFile last]) = .ok read ∧
      read.statements.map Node.unplaced = [tree.unplaced] := by
  set depth := Token.depthOfTokens (tree.concise trailing ++ [.inserted .endOfFile last])
    with isDepth
  have nests : Token.NestWithin depth (tree.concise trailing ++ [.inserted .endOfFile last]) :=
    Token.depthOfTokens_le.mp (Nat.le_of_eq isDepth.symm)
  rw [Token.nestWithin_append] at nests
  have expression := (climbs_concise operation nests.1).1.expression (level_pos tree) true
  have starts : StartsWith _ (tree.concise trailing) := startsWith_concise operation
  have quiet : startsBinding (tree.concise trailing ++ [.inserted .endOfFile last]) = false :=
    startsBinding_eq_false (bindsNext_append _ _ (bindsNext_concise operation) rfl)
  refine ⟨_, parse_of_expression rfl (starts.mono fun _ start => (startsExpression_spec start).1)
    quiet (expression.mono fun _ follows => follows ▸ rfl), ?_⟩
  rw [List.map_singleton, Node.unplaced_settled]

/-- The expression `!(a || b) .. 1 - (c - 2) * -c`. -/
def sampleOperation : Node :=
  let here := Location.start none
  let name (text : String) : Node := .identifier text here
  .range (.unary .not (.binary .or (name "a") (name "b") here) here)
    (.binary .subtract (.integer 1 here)
      (.binary .multiply (.binary .subtract (name "c") (.integer 2 here) here)
        (.unary .negate (name "c") here) here) here) here

theorem parse_concise_sampleOperation : sampleOperation.isOperation ∧
    (sampleOperation.concise false).map (·.kind) =
      [.not, .leftParen, .identifier, .or, .identifier, .rightParen, .doubleDot, .integer,
        .minus, .leftParen, .identifier, .minus, .integer, .rightParen, .star, .minus,
        .identifier] ∧
    ∃ read, parse (sampleOperation.concise false ++ [.inserted .endOfFile (.start none)]) =
        .ok read ∧
      read.statements.map Node.unplaced = [sampleOperation.unplaced] :=
  ⟨by decide, by decide, parse_concise false sampleOperation (by decide) (.start none)⟩

end Tree

end Offside
