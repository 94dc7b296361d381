import Offside.Proofs.Tree.Reading

/-!
# What the rules for statements read

Statements, blocks, bindings, conditionals and loops, in terms of the expressions in them. A
statement is a binding only if a binding operator is the first token that cannot belong to a
pattern, so an expression without bindings in front is not mistaken for one.
-/

namespace Offside.Tree

open Token (Kind)

variable {interpolate : List Token → Except Defect Node}

/-! ## Blocks and functions -/

/-- The tokens that can follow a statement. -/
def endsStatement : Kind → Bool
  | .statementEnd | .blockEnd | .endOfFile => true
  | _ => false

theorem endsStatement_closes {kind : Kind} (ends : endsStatement kind) :
    closes kind ∧ kind ≠ .comma := by
  cases kind <;> simp_all [endsStatement, closes]

/-- Tokens that make a statement. -/
structure ReadsStatement (interpolate : List Token → Except Defect Node) (tokens : List Token)
    (node : Node) : Prop where
  starts : StartsWith (fun kind => endsStatement kind = false) tokens
  statement :
    Reads interpolate (parseStatement · interpolate) (fun kind => endsStatement kind) tokens node

theorem skipSeparators_eq {tokens : List Token} (other : (headToken tokens).kind ≠ .statementEnd) :
    skipSeparators tokens = .ok ((), tokens) := by
  cases tokens with
  | nil => rfl
  | cons token rest => simp_all [skipSeparators]

/-- Statements with separators between them are read up to the end of their block. -/
theorem reads_statements (trailing : Bool) (location : Location) (terminator : Kind)
    (ends : endsStatement terminator) (other : terminator ≠ .statementEnd)
    {items : List (List Token)} {nodes : List Node}
    (each : List.Forall₂ (ReadsStatement interpolate) items nodes) :
    Reads interpolate (parseStatements · interpolate terminator) (· = terminator)
      (Rendering.statements trailing location items) nodes := by
  induction each with
  | nil =>
      intro count rest _ follows
      have skipped : skipSeparators rest = .ok ((), rest) :=
        skipSeparators_eq (by rwa [follows])
      simp [parseStatements, Rendering.statements, skipped, follows]
  | @cons tokens node items nodes first others ih =>
      intro count rest bound follows
      have start (kind : Kind) (ending : endsStatement kind) (later : List Token) :
          (headToken (tokens ++ later)).kind ≠ kind := by
        rintro rfl
        simp [first.starts.head later] at ending
      have skipped (later : List Token) :
          skipSeparators (tokens ++ later) = .ok ((), tokens ++ later) :=
        skipSeparators_eq (start .statementEnd rfl later)
      by_cases last : items.isEmpty && !trailing
      · cases others with
        | cons => simp at last
        | nil =>
            simp only [Rendering.statements, last, if_true, List.append_nil] at bound ⊢
            have readsFirst := first.statement count rest bound (by rwa [follows])
            simp [parseStatements, skipped, start terminator ends, start .endOfFile rfl, readsFirst,
              follows]
      · simp only [Rendering.statements, last, Bool.false_eq_true, if_false, List.append_assoc,
          List.cons_append] at bound ⊢
        have readsFirst := first.statement count
          (.inserted .statementEnd location ::
            (Rendering.statements trailing location items ++ rest)) bound rfl
        have readsOthers := ih.below (·.statements terminator) (fun _ => rfl) count rest
          (by simp at bound ⊢; omega) follows
        simp [parseStatements, skipped, start terminator ends, start .endOfFile rfl, readsFirst,
          other.symm, readsOthers]

/-- Statements between the start and the end of a block. -/
theorem reads_block (trailing : Bool) (location : Location) {items : List (List Token)}
    {nodes : List Node} (each : List.Forall₂ (ReadsStatement interpolate) items nodes) :
    Reads interpolate parseBlock (fun _ => True) (Rendering.block trailing location items)
      ⟨nodes, location⟩ := by
  intro count rest bound _
  have read := reads_statements trailing location .blockEnd rfl (by decide) each
  have inner := read.below (·.statements .blockEnd) (fun _ => rfl) count
    (.inserted .blockEnd location :: rest) (by simp [Rendering.block] at bound ⊢; omega) rfl
  simp [parseBlock, Rendering.block, inner]

/-- A function with a block as its body. -/
theorem reads_lambda {parameters : List Pattern} (fits : ∀ pattern ∈ parameters, pattern.fits)
    {tokens : List Token} {body : Block Node} (location : Location)
    (starts : StartsWith (· = .blockStart) tokens)
    (reads : Reads interpolate parseBlock (fun _ => True) tokens body) (commas : Bool) :
    Reads interpolate (parsePrimary · interpolate commas) (fun _ => True)
      (.fixed .fnWord location :: ((parameters.map Pattern.tokens).flatten ++
        .fixed .thinArrow location :: tokens))
      (.lambda parameters body location) := by
  intro count rest bound _
  simp only [List.cons_append, List.append_assoc] at bound ⊢
  have readsParameters : Reads interpolate parseParameters _ _ _ :=
    reads_parameters (readsPattern_tokens fits)
  have first := readsParameters.below (·.parameters) (fun _ => rfl) count
    (.fixed .thinArrow location :: (tokens ++ rest)) (by simp at bound ⊢; omega) rfl
  have second := reads count rest (by simp at bound ⊢; omega) trivial
  have start := starts.head rest
  simp [parsePrimary, parseLambda, first, start, second]

/-- A function with an expression as its body. -/
theorem reads_lambda_expression {items : List (List Token)} {parameters : List Pattern}
    (each : List.Forall₂ (ReadsPattern interpolate) items parameters) {tokens : List Token}
    {body : Node} {commas : Bool} {follow : Kind → Prop} (start arrow : Location)
    (starts : StartsWith (· ≠ .blockStart) tokens)
    (reads : Reads interpolate (parseExpression · interpolate commas) follow tokens body) :
    Reads interpolate (parsePrimary · interpolate commas) follow
      (.fixed .fnWord start :: (items.flatten ++ .fixed .thinArrow arrow :: tokens))
      (.lambda parameters ⟨[body], body.location⟩ start) := by
  intro count rest bound follows
  simp only [List.cons_append, List.append_assoc] at bound ⊢
  have readsParameters : Reads interpolate parseParameters _ _ _ := reads_parameters each
  have first := readsParameters.below (·.parameters) (fun _ => rfl) count
    (.fixed .thinArrow arrow :: (tokens ++ rest)) (by simp at bound ⊢; omega) rfl
  have second := reads.below (·.expression commas) (fun _ => rfl) count rest
    (by simp at bound ⊢; omega) follows
  have notBlock := starts.head rest
  simp [parsePrimary, parseLambda, first, notBlock, second]

/-! ## Bindings -/

/-- The tokens that patterns consist of. -/
def inPattern : Kind → Bool
  | .identifier | .comma | .leftParen | .rightParen => true
  | _ => false

/-- The tokens that make a binding or an update of what precedes them. -/
def binds (kind : Kind) : Bool := isBindingOperator kind || (updateOperator? kind).isSome

theorem inPattern_of_binds {kind : Kind} (binding : binds kind) : inPattern kind = false := by
  cases kind <;> simp_all [binds, isBindingOperator, updateOperator?, inPattern]

/-- Whether the first token that is no part of a pattern makes a binding. -/
def bindsNext (tokens : List Token) : Bool :=
  (tokens.find? fun token => !inPattern token.kind).any (binds ·.kind)

theorem bindsNext_append (before after : List Token) (quietBefore : bindsNext before = false)
    (quietAfter : bindsNext after = false) : bindsNext (before ++ after) = false := by
  rw [bindsNext, List.find?_append]
  cases found : before.find? fun token => !inPattern token.kind with
  | none => simpa [bindsNext] using quietAfter
  | some token => simpa [bindsNext, found] using quietBefore

theorem bindsNext_cons (token : Token) (rest : List Token) :
    bindsNext (token :: rest) =
      if inPattern token.kind then bindsNext rest else binds token.kind := by
  cases inside : inPattern token.kind <;> simp [bindsNext, inside]

theorem bindsNext_cons_inside {token : Token} (inside : inPattern token.kind) (rest : List Token) :
    bindsNext (token :: rest) = bindsNext rest := by
  rw [bindsNext_cons, if_pos inside]

theorem bindsNext_cons_outside {token : Token} (outside : inPattern token.kind = false)
    (rest : List Token) : bindsNext (token :: rest) = binds token.kind := by
  simp [bindsNext_cons, outside]

theorem bindsNext_of_head {tokens : List Token} (binding : binds (headToken tokens).kind) :
    bindsNext tokens = true := by
  cases tokens with
  | nil => simp [headToken, default, binds, isBindingOperator, updateOperator?] at binding
  | cons token rest =>
      rw [headToken_cons] at binding
      rwa [bindsNext_cons_outside (inPattern_of_binds binding)]

theorem bindsNext_of_bindsTuple {depth : Nat} {tokens : List Token}
    (binding : bindsTuple depth tokens) : bindsNext tokens = true := by
  induction tokens generalizing depth with
  | nil => simp [bindsTuple] at binding
  | cons token rest ih =>
      rw [bindsTuple] at binding
      rw [bindsNext_cons]
      split at binding
      · simp_all [inPattern, ih binding]
      · split at binding
        · simp_all [inPattern, bindsNext_of_head, binds]
        · simp_all [inPattern, ih binding]
      · simp_all [inPattern, ih binding]
      · simp_all [inPattern, ih binding]
      · simp at binding

/-- A statement is taken for a binding only if a binding operator comes first after tokens that can
belong to a pattern. -/
theorem bindsNext_of_startsBinding {tokens : List Token} (binding : startsBinding tokens) :
    bindsNext tokens = true := by
  rw [startsBinding] at binding
  split at binding
  · rename_i isName
    match tokens with
    | [] => simp [headToken, default] at isName
    | [token] => simp_all [secondKind, isBindingOperator, updateOperator?]
    | token :: second :: rest =>
        have inside : inPattern token.kind = true := by
          rw [headToken_cons] at isName
          simp [isName, inPattern]
        rw [bindsNext_cons_inside inside]
        exact bindsNext_of_head binding
  · exact bindsNext_of_bindsTuple binding
  · simp at binding

theorem startsBinding_eq_false {tokens : List Token} (quiet : bindsNext tokens = false) :
    startsBinding tokens = false := by
  cases binding : startsBinding tokens with
  | false => rfl
  | true => simp [bindsNext_of_startsBinding binding] at quiet

/-- Patterns between parentheses do not change how many are open, if no single pattern does. -/
theorem bindsTuple_tupleElements (location : Location) (patterns : List Pattern)
    (each : ∀ pattern ∈ patterns, ∀ depth rest,
      bindsTuple (depth + 1) (pattern.tokens ++ rest) = bindsTuple (depth + 1) rest)
    (depth : Nat) (rest : List Token) :
    bindsTuple (depth + 1)
        (Rendering.tupleElements location (patterns.map Pattern.tokens) ++ rest) =
      bindsTuple (depth + 1) rest := by
  have tail (patterns : List Pattern) (each : ∀ pattern ∈ patterns, ∀ depth rest,
      bindsTuple (depth + 1) (pattern.tokens ++ rest) = bindsTuple (depth + 1) rest) :
      bindsTuple (depth + 1) (Rendering.commaTail location (patterns.map Pattern.tokens) ++ rest) =
        bindsTuple (depth + 1) rest := by
    induction patterns with
    | nil => rfl
    | cons pattern patterns ih =>
        rw [List.forall_mem_cons] at each
        simp [bindsTuple, each.1, ih each.2]
  match patterns with
  | [] => rfl
  | [only] => simp [Rendering.tupleElements, Rendering.tupleTail, each only, bindsTuple]
  | first :: second :: others =>
      rw [List.forall_mem_cons] at each
      have others := tail (second :: others) each.2
      simp only [List.map_cons] at others
      simp [Rendering.tupleElements, Rendering.tupleTail, each.1, ← others]

/-- A pattern does not change how many parentheses are open. -/
theorem bindsTuple_pattern (pattern : Pattern) (depth : Nat) (rest : List Token) :
    bindsTuple (depth + 1) (pattern.tokens ++ rest) = bindsTuple (depth + 1) rest := by
  induction pattern using Pattern.induction generalizing depth rest with
  | name bound location => simp [Pattern.tokens, bindsTuple]
  | tuple elements location ih =>
      have inner := bindsTuple_tupleElements location elements ih
      simp [Pattern.tokens, Rendering.bracketed, bindsTuple, inner]

theorem startsBinding_pattern (pattern : Pattern) (declares : Bool) (location : Location)
    (rest : List Token) :
    startsBinding (pattern.tokens ++ .fixed (bindingKind declares) location :: rest) = true := by
  cases pattern with
  | name bound place =>
      cases declares <;>
        simp [Pattern.tokens, startsBinding, secondKind, bindingKind, isBindingOperator]
  | tuple elements place =>
      have inner := bindsTuple_tupleElements place elements
        (fun pattern _ => bindsTuple_pattern pattern) 0
      rw [Nat.zero_add] at inner
      cases declares <;>
        simp [Pattern.tokens, startsBinding, Rendering.bracketed, bindsTuple, inner, bindingKind,
          isBindingOperator]

/-- A pattern, a binding operator and an operand are a binding. -/
theorem reads_binding {pattern : Pattern} (fits : pattern.fits) {tokens : List Token} {value : Node}
    (reads : ReadsOperand interpolate tokens value) (declares : Bool) (location : Location) :
    Reads interpolate parseBinding (fun kind => closes kind)
      (pattern.tokens ++ .fixed (bindingKind declares) location :: tokens)
      (.binding pattern value declares pattern.location) := by
  intro count rest bound follows
  simp only [List.append_assoc, List.cons_append] at bound ⊢
  have readsPattern : Reads interpolate parsePattern _ _ _ := reads_pattern pattern fits
  have first := readsPattern count (.fixed (bindingKind declares) location :: (tokens ++ rest))
    bound trivial
  have second := (reads.expression true).below (·.expression true) (fun _ => rfl) count rest
    (by simp at bound ⊢; omega) follows
  have noUpdate : updateOperator? (bindingKind declares) = none := by cases declares <;> rfl
  have notEnd : bindingKind declares ≠ .endOfFile := by cases declares <;> decide
  have declared : (bindingKind declares == .declare) = declares := by cases declares <;> rfl
  cases pattern with
  | name bound place =>
      simp only [Pattern.tokens, List.cons_append, List.nil_append] at first ⊢
      simp [parseBinding, secondKind, noUpdate, first, notEnd, second, declared]
  | tuple elements place =>
      simp only [Pattern.tokens, Rendering.bracketed, Pattern.tokenLists_eq_map, List.cons_append,
        List.append_assoc, List.nil_append] at first ⊢
      simp [parseBinding, first, notEnd, second, declared]

/-- A name, an update operator and an operand are an update. -/
theorem reads_update (name : String) (operator : UpdateOperator) {tokens : List Token}
    {value : Node} (reads : ReadsOperand interpolate tokens value) (location : Location) :
    Reads interpolate parseBinding (fun kind => closes kind)
      (⟨.identifier, .text name, location⟩ :: .fixed operator.kind location :: tokens)
      (.update name operator value location) := by
  intro count rest bound follows
  have inner := (reads.expression true).below (·.expression true) (fun _ => rfl) count rest
    (by simp at bound ⊢; omega) follows
  cases operator <;>
    simp [parseBinding, secondKind, UpdateOperator.kind, updateOperator?, inner, wordOf,
      Payload.shown]

/-! ## Conditionals -/

/-- The tokens that can follow a branch of a conditional. Within a statement they cannot belong to a
pattern, so that no branch is mistaken for a binding. -/
def endsBranch (statement : Bool) (kind : Kind) : Bool :=
  if statement then endsStatement kind || decide (kind = .elseWord) else closes kind

theorem endsBranch_closes {statement : Bool} {kind : Kind} (ends : endsBranch statement kind) :
    closes kind := by
  cases statement <;> cases kind <;> simp_all [endsBranch, endsStatement, closes]

theorem endsBranch_elseWord (statement : Bool) : endsBranch statement .elseWord := by
  cases statement <;> rfl

theorem bindsNext_of_endsBranch {tokens : List Token}
    (ends : endsBranch true (headToken tokens).kind) : bindsNext tokens = false := by
  cases tokens with
  | nil => rfl
  | cons token rest =>
      rw [headToken_cons] at ends
      rw [bindsNext_cons]
      cases kind : token.kind <;>
        simp_all [endsBranch, endsStatement, inPattern, binds, isBindingOperator, updateOperator?]

/-- Tokens that make a branch of a conditional, which is read after the conditional's `if`. -/
def ReadsBranch (interpolate : List Token → Except Defect Node) (statement commas : Bool)
    (tokens : List Token) (node : Node) : Prop :=
  ∀ count rest, (tokens ++ rest).length < count → endsBranch statement (headToken rest).kind →
    parseBranch (Level.ofNat interpolate count) statement commas (tokens ++ rest) = .ok (node, rest)

/-- An operand is a branch, within a statement if it does not look like a binding. -/
theorem ReadsOperand.branch {tokens : List Token} {node : Node}
    (reads : ReadsOperand interpolate tokens node) (statement commas : Bool)
    (quiet : statement → bindsNext tokens = false) :
    ReadsBranch interpolate statement commas tokens node := by
  intro count rest bound follows
  have start := reads.starts.head rest
  have notBlock : (headToken (tokens ++ rest)).kind ≠ .blockStart := by
    intro same
    simp [same, startsOperand] at start
  have notIf : (headToken (tokens ++ rest)).kind ≠ .ifWord := by
    intro same
    simp [same, startsOperand] at start
  have notBinding : (statement && startsBinding (tokens ++ rest)) = false := by
    cases statement with
    | false => rfl
    | true =>
        exact startsBinding_eq_false
          (bindsNext_append tokens rest (quiet rfl) (bindsNext_of_endsBranch follows))
  have inner := (reads.application commas).below (·.application commas) (fun _ => rfl) count rest
    bound (endsBranch_closes follows)
  simp only [parseBranch, run_bind, run_get, ok_bind, run_ite, notBlock, notIf, notBinding, inner,
    decide_false, Bool.and_false, Bool.false_eq_true, if_false]

/-- A block is a branch. -/
theorem ReadsBranch.ofBlock {tokens : List Token} {block : Block Node}
    (starts : StartsWith (· = .blockStart) tokens)
    (reads : Reads interpolate parseBlock (fun _ => True) tokens block) (statement commas : Bool) :
    ReadsBranch interpolate statement commas tokens (.block block) := by
  intro count rest bound _
  have start := starts.head rest
  have inner := reads count rest (Nat.le_of_lt bound) trivial
  simp [parseBranch, start, inner]

/-- A binding or an update is a branch of a statement. -/
theorem ReadsBranch.ofBinding {tokens : List Token} {node : Node}
    (starts : StartsWith (fun kind => inPattern kind = true) tokens)
    (binding : ∀ rest, startsBinding (tokens ++ rest) = true)
    (reads : Reads interpolate parseBinding (fun kind => closes kind) tokens node) (commas : Bool) :
    ReadsBranch interpolate true commas tokens node := by
  intro count rest bound follows
  have start := starts.head rest
  have notBlock : (headToken (tokens ++ rest)).kind ≠ .blockStart := by
    intro same
    simp [same, inPattern] at start
  have notIf : (headToken (tokens ++ rest)).kind ≠ .ifWord := by
    intro same
    simp [same, inPattern] at start
  have inner := reads count rest (Nat.le_of_lt bound) (endsBranch_closes follows)
  simp [parseBranch, notBlock, notIf, binding, inner]

/-- A conditional is a branch of a statement. -/
theorem ReadsBranch.ofConditional {tokens : List Token} {node : Node} {commas : Bool}
    (starts : StartsWith (· = .ifWord) tokens)
    (reads : Reads interpolate (parseConditional · true commas) (fun kind => endsBranch true kind)
      tokens node) :
    ReadsBranch interpolate true commas tokens node := by
  intro count rest bound follows
  have start := starts.head rest
  have inner := reads.below (·.conditional true commas) (fun _ => rfl) count rest bound follows
  simp [parseBranch, start, inner]

/-- A condition and two branches are a conditional. -/
theorem reads_conditional {statement commas : Bool} {tokens thenTokens elseTokens : List Token}
    {condition thenBranch elseBranch : Node} (location : Location)
    (readsCondition : ReadsOperand interpolate tokens condition)
    (readsThen : ReadsBranch interpolate statement commas thenTokens thenBranch)
    (starts : StartsWith (fun kind => kind ≠ .colon ∧ (kind = .ifWord → statement = true))
      elseTokens)
    (readsElse : ReadsBranch interpolate statement commas elseTokens elseBranch) :
    Reads interpolate (parseConditional · statement commas) (fun kind => endsBranch statement kind)
      (.fixed .ifWord location :: (tokens ++ .fixed .thenWord location :: (thenTokens ++
        .fixed .elseWord location :: elseTokens)))
      (.conditional condition thenBranch elseBranch location) := by
  intro count rest bound follows
  simp only [List.cons_append, List.append_assoc] at bound ⊢
  have first := (readsCondition.expression commas).below (·.expression commas) (fun _ => rfl) count
    (.fixed .thenWord location :: (thenTokens ++ .fixed .elseWord location :: (elseTokens ++ rest)))
    (by simp at bound ⊢; omega) rfl
  have second := readsThen count (.fixed .elseWord location :: (elseTokens ++ rest))
    (by simp at bound ⊢; omega) (endsBranch_elseWord statement)
  have third := readsElse count rest (by simp at bound ⊢; omega) follows
  have start := starts.head rest
  by_cases isIf : (headToken (elseTokens ++ rest)).kind = .ifWord
  · obtain rfl := start.2 isIf
    have inner : (Level.ofNat interpolate count).conditional true commas (elseTokens ++ rest) =
        .ok (elseBranch, rest) := by
      simpa [parseBranch, isIf] using third
    simp [parseConditional, first, second, acceptElse, isIf, inner]
  · simp [parseConditional, first, second, acceptElse, isIf, start.1, third]

/-! ## Statements -/

theorem parseStatement_eq (below : Level) {tokens : List Token}
    (notFor : (headToken tokens).kind ≠ .forWord) (notWhile : (headToken tokens).kind ≠ .whileWord)
    (notIf : (headToken tokens).kind ≠ .ifWord) :
    parseStatement below interpolate tokens =
      if startsBinding tokens then parseBinding below tokens
      else parseExpression below interpolate true tokens := by
  simp only [parseStatement, run_bind, run_get, ok_bind]
  cases kind : (headToken tokens).kind <;> simp_all

/-- An expression is a statement if it does not look like one of another kind. -/
theorem ReadsStatement.ofExpression {tokens : List Token} {node : Node}
    (starts : StartsWith (fun kind => endsStatement kind = false ∧ kind ≠ .forWord ∧
      kind ≠ .whileWord ∧ kind ≠ .ifWord) tokens)
    (quiet : bindsNext tokens = false)
    (reads : Reads interpolate (parseExpression · interpolate true)
      (fun kind => closes kind ∧ kind ≠ .comma) tokens node) :
    ReadsStatement interpolate tokens node where
  starts := starts.mono fun _ start => start.1
  statement := by
    intro count rest bound follows
    have start := starts.head rest
    have notBinding : startsBinding (tokens ++ rest) = false :=
      startsBinding_eq_false (bindsNext_append tokens rest quiet
        (bindsNext_of_endsBranch (by simp [endsBranch, follows])))
    have inner := reads count rest bound (endsStatement_closes follows)
    change parseStatement _ interpolate (tokens ++ rest) = _
    rw [parseStatement_eq _ start.2.1 start.2.2.1 start.2.2.2, notBinding]
    exact inner

/-- A binding or an update is a statement. -/
theorem ReadsStatement.ofBinding {tokens : List Token} {node : Node}
    (starts : StartsWith (fun kind => inPattern kind = true) tokens)
    (binding : ∀ rest, startsBinding (tokens ++ rest) = true)
    (reads : Reads interpolate parseBinding (fun kind => closes kind) tokens node) :
    ReadsStatement interpolate tokens node where
  starts := starts.mono fun kind inside => by cases kind <;> simp_all [inPattern, endsStatement]
  statement := by
    intro count rest bound follows
    have start := starts.head rest
    have inner := reads count rest bound (endsStatement_closes follows).1
    have other (kind : Kind) (outside : inPattern kind = false) :
        (headToken (tokens ++ rest)).kind ≠ kind := by
      rintro rfl
      simp [start] at outside
    change parseStatement _ interpolate (tokens ++ rest) = _
    rw [parseStatement_eq _ (other _ rfl) (other _ rfl) (other _ rfl), binding]
    exact inner

/-- A conditional is a statement. -/
theorem ReadsStatement.ofConditional {tokens : List Token} {node : Node}
    (starts : StartsWith (· = .ifWord) tokens)
    (reads : Reads interpolate (parseConditional · true true) (fun kind => endsBranch true kind)
      tokens node) :
    ReadsStatement interpolate tokens node where
  starts := starts.mono fun _ same => same ▸ rfl
  statement := by
    intro count rest bound follows
    have start := starts.head rest
    have inner := reads count rest bound (by simp [endsBranch, follows])
    have spec := closes_spec (endsStatement_closes follows).1
    simp [parseStatement, start, inner, parseDotTail, parsePipeTail, spec]

/-- A loop over the elements of an operand. -/
theorem ReadsStatement.forLoop {pattern : Pattern} (fits : pattern.fits)
    {tokens bodyTokens : List Token} {iterable : Node} {body : Block Node} (location : Location)
    (reads : ReadsOperand interpolate tokens iterable)
    (starts : StartsWith (· = .blockStart) bodyTokens)
    (readsBody : Reads interpolate parseBlock (fun _ => True) bodyTokens body) :
    ReadsStatement interpolate
      (.fixed .forWord location :: (pattern.tokens ++ .fixed .leftArrow location :: (tokens ++
        .fixed .colon location :: bodyTokens)))
      (.forLoop pattern iterable body location) where
  starts := ⟨_, _, rfl, rfl⟩
  statement := by
    intro count rest bound _
    simp only [List.cons_append, List.append_assoc] at bound ⊢
    have readsPattern : Reads interpolate parsePattern _ _ _ := reads_pattern pattern fits
    have first := readsPattern.below (·.pattern) (fun _ => rfl) count
      (.fixed .leftArrow location :: (tokens ++ .fixed .colon location :: (bodyTokens ++ rest)))
      (by simp at bound ⊢; omega) trivial
    have second := (reads.expression true).below (·.expression true) (fun _ => rfl) count
      (.fixed .colon location :: (bodyTokens ++ rest)) (by simp at bound ⊢; omega) rfl
    have third := readsBody count rest (by simp at bound ⊢; omega) trivial
    have start := starts.head rest
    simp [parseStatement, parseFor, first, second, parseClauseBody, start, third]

/-- A loop under a condition. -/
theorem ReadsStatement.whileLoop {tokens bodyTokens : List Token} {condition : Node}
    {body : Block Node} (location : Location) (reads : ReadsOperand interpolate tokens condition)
    (starts : StartsWith (· = .blockStart) bodyTokens)
    (readsBody : Reads interpolate parseBlock (fun _ => True) bodyTokens body) :
    ReadsStatement interpolate
      (.fixed .whileWord location :: (tokens ++ .fixed .colon location :: bodyTokens))
      (.whileLoop condition body location) where
  starts := ⟨_, _, rfl, rfl⟩
  statement := by
    intro count rest bound _
    simp only [List.cons_append, List.append_assoc] at bound ⊢
    have first := (reads.expression true).below (·.expression true) (fun _ => rfl) count
      (.fixed .colon location :: (bodyTokens ++ rest)) (by simp at bound ⊢; omega) rfl
    have second := readsBody count rest (by simp at bound ⊢; omega) trivial
    have start := starts.head rest
    simp [parseStatement, parseWhile, first, parseClauseBody, start, second]

/-! ## Programs -/

/-- An expression before the end of file is a program, if it does not look like a statement of
another kind. -/
theorem parse_of_expression {tokens : List Token} {node : Node} {last : Token}
    (isEnd : last.kind = .endOfFile)
    (starts : StartsWith (fun kind => endsStatement kind = false ∧ kind ≠ .forWord ∧
      kind ≠ .whileWord ∧ kind ≠ .ifWord) tokens)
    (quiet : startsBinding (tokens ++ [last]) = false)
    (reads : Reads (parseInterpolation (Token.depthOfTokens (tokens ++ [last])))
      (parseExpression · (parseInterpolation (Token.depthOfTokens (tokens ++ [last]))) true)
      (· = .endOfFile) tokens node) :
    parse (tokens ++ [last]) = .ok ⟨[node], (headToken (tokens ++ [last])).location⟩ := by
  have start := starts.head [last]
  have other (kind : Kind) (ends : endsStatement kind) :
      (headToken (tokens ++ [last])).kind ≠ kind := by
    rintro rfl
    simp [start.1] at ends
  set interpolate := parseInterpolation (Token.depthOfTokens (tokens ++ [last]))
  set below := Level.ofNat interpolate ((tokens ++ [last]).length)
  have expression : parseExpression below interpolate true (tokens ++ [last]) =
      .ok (node, [last]) := reads _ _ (Nat.le_refl _) isEnd
  have statement : parseStatement below interpolate (tokens ++ [last]) = .ok (node, [last]) := by
    rw [parseStatement_eq _ start.2.1 start.2.2.1 start.2.2.2, quiet]
    exact expression
  have statements : parseStatements below interpolate .endOfFile (tokens ++ [last]) =
      .ok ([node], [last]) := by
    simp [parseStatements, skipSeparators_eq (other .statementEnd rfl), other .endOfFile rfl,
      statement, isEnd]
  have run : (Level.ofNat interpolate ((tokens ++ [last]).length + 1)).statements .endOfFile
      (tokens ++ [last]) = .ok ([node], [last]) := statements
  simp only [parse, runRule, run_bind, interpolate] at run ⊢
  rw [run]
  simp [isEnd]

end Offside.Tree
