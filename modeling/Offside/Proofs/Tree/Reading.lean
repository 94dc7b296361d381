import Offside.Proofs.Tree.Rendering
import Offside.Tree.Parser
import Mathlib.Data.List.Forall2

/-!
# What the rules of the grammar read

A rule of the grammar reads a list of tokens if it consumes exactly these tokens from the front of
every longer list, as long as the token after them cannot belong to them. Each lemma says what a
rule reads in terms of what the rules below it read.
-/

namespace Offside.Tree

open Token (Kind)

/-! ## Running a parser -/

section Running

variable {α β : Type}

@[simp]
theorem run_bind (parser : Parser α) (next : α → Parser β) (tokens : List Token) :
    (parser >>= next) tokens = (parser tokens).bind fun result => next result.1 result.2 := rfl

@[simp]
theorem run_map (parser : Parser α) (change : α → β) (tokens : List Token) :
    (change <$> parser) tokens =
      (parser tokens).bind fun result => .ok (change result.1, result.2) := rfl

@[simp]
theorem run_pure (result : α) (tokens : List Token) :
    (pure result : Parser α) tokens = .ok (result, tokens) := rfl

@[simp]
theorem run_ite (condition : Prop) [Decidable condition] (first second : Parser α)
    (tokens : List Token) :
    (if condition then first else second) tokens =
      if condition then first tokens else second tokens := by
  split <;> rfl

@[simp]
theorem ok_bind (result : α) (next : α → Except Defect β) :
    (Except.ok result).bind next = next result := rfl

@[simp]
theorem ok_andThen (result : α) (next : α → Except Defect β) :
    (Except.ok result >>= next) = next result := rfl

@[simp]
theorem run_get (tokens : List Token) : (get : Parser (List Token)) tokens = .ok (tokens, tokens) :=
  rfl

@[simp]
theorem run_lift_ok (result : α) (tokens : List Token) :
    (liftM (Except.ok result : Except Defect α) : Parser α) tokens = .ok (result, tokens) := rfl

@[simp]
theorem headToken_cons (token : Token) (rest : List Token) :
    headToken (token :: rest) = token := rfl

@[simp]
theorem run_peek (tokens : List Token) : peek tokens = .ok (headToken tokens, tokens) := rfl

@[simp]
theorem run_peekKind (tokens : List Token) :
    peekKind tokens = .ok ((headToken tokens).kind, tokens) := rfl

@[simp]
theorem run_advance (token : Token) (rest : List Token) :
    advance (token :: rest) =
      .ok (token, if token.kind = .endOfFile then token :: rest else rest) := rfl

@[simp]
theorem run_accept (kind : Kind) (tokens : List Token) :
    accept kind tokens =
      if (headToken tokens).kind = kind then
        (advance tokens).bind fun result => .ok (true, result.2)
      else .ok (false, tokens) := by
  simp [accept]

@[simp]
theorem run_expect (kind : Kind) (expectation : Expectation) (tokens : List Token) :
    expect kind expectation tokens =
      if (headToken tokens).kind = kind then advance tokens else fail expectation tokens := by
  simp [expect]

theorem expectClosing_closing (delimiter : Delimiter) (opened place : Location)
    (rest : List Token) :
    expectClosing delimiter opened (.fixed delimiter.closingKind place :: rest) =
      .ok ((), rest) := by
  cases delimiter <;> simp [expectClosing, Delimiter.closingKind]

end Running

/-! ## Reading -/

/-- A rule of the grammar, in terms of the rules below it, reads a list of tokens if it consumes
just these from the front of every list that goes on with a token of a kind in `follow`. -/
def Reads {α : Type} (interpolate : List Token → Except Defect Node) (rule : Level → Parser α)
    (follow : Kind → Prop) (tokens : List Token) (result : α) : Prop :=
  ∀ count rest, (tokens ++ rest).length ≤ count → follow (headToken rest).kind →
    rule (Level.ofNat interpolate count) (tokens ++ rest) = .ok (result, rest)

/-- A list of tokens that starts with a token of a kind in `first`. -/
def StartsWith (first : Kind → Prop) (tokens : List Token) : Prop :=
  ∃ token rest, tokens = token :: rest ∧ first token.kind

theorem StartsWith.head {first : Kind → Prop} {tokens : List Token}
    (starts : StartsWith first tokens) (rest : List Token) :
    first (headToken (tokens ++ rest)).kind := by
  obtain ⟨token, tail, rfl, holds⟩ := starts
  exact holds

theorem StartsWith.mono {first second : Kind → Prop} {tokens : List Token}
    (starts : StartsWith first tokens) (weaker : ∀ kind, first kind → second kind) :
    StartsWith second tokens := by
  obtain ⟨token, tail, same, holds⟩ := starts
  exact ⟨token, tail, same, weaker _ holds⟩

theorem StartsWith.append {first : Kind → Prop} {tokens : List Token}
    (starts : StartsWith first tokens) (rest : List Token) : StartsWith first (tokens ++ rest) := by
  obtain ⟨token, tail, rfl, holds⟩ := starts
  exact ⟨token, tail ++ rest, rfl, holds⟩

section Rules

variable {interpolate : List Token → Except Defect Node}

theorem Reads.mono {α : Type} {rule : Level → Parser α} {follow follow' : Kind → Prop}
    {tokens : List Token} {result : α} (reads : Reads interpolate rule follow tokens result)
    (stronger : ∀ kind, follow' kind → follow kind) :
    Reads interpolate rule follow' tokens result :=
  fun count rest bound follows => reads count rest bound (stronger _ follows)

/-- A rule reads the same tokens when it is called as a rule of the level below. -/
theorem Reads.below {α : Type} {rule : Level → Parser α} {follow : Kind → Prop}
    {tokens : List Token} {result : α} (reads : Reads interpolate rule follow tokens result)
    (field : Level → Parser α) (isRule : ∀ level, field (level.next interpolate) = rule level)
    (count : Nat) (rest : List Token) (bound : (tokens ++ rest).length < count)
    (follows : follow (headToken rest).kind) :
    field (Level.ofNat interpolate count) (tokens ++ rest) = .ok (result, rest) := by
  obtain ⟨smaller, rfl⟩ := Nat.exists_eq_succ_of_ne_zero (Nat.ne_zero_of_lt bound)
  rw [Level.ofNat, Nat.repeat, isRule]
  exact reads smaller rest (Nat.le_of_lt_succ bound) follows

/-! ## Patterns -/

theorem pattern_startsWith (pattern : Pattern) :
    StartsWith (fun kind => kind = .identifier ∨ kind = .leftParen) pattern.tokens := by
  cases pattern with
  | name bound location => exact ⟨_, _, by rw [Pattern.tokens], .inl rfl⟩
  | tuple elements location =>
      exact ⟨_, _, by rw [Pattern.tokens, Rendering.bracketed], .inr rfl⟩

/-- Patterns that are read one by one are read with commas before them. -/
theorem reads_patternTail (location : Location) (patterns : List Pattern)
    (each : ∀ pattern ∈ patterns,
      Reads interpolate parsePattern (fun _ => True) pattern.tokens pattern) :
    Reads interpolate parsePatternTail (· = .rightParen)
      (Rendering.commaTail location (patterns.map Pattern.tokens))
      (patterns, !patterns.isEmpty) := by
  induction patterns with
  | nil =>
      intro count rest _ follows
      simp [parsePatternTail, follows]
  | cons pattern patterns ih =>
      rw [List.forall_mem_cons] at each
      intro count rest bound follows
      have first := each.1.below (·.pattern) (fun _ => rfl) count
        (Rendering.commaTail location (patterns.map Pattern.tokens) ++ rest)
        (by simp at bound ⊢; omega) trivial
      have others := (ih each.2).below (·.patternTail) (fun _ => rfl) count rest
        (by simp at bound ⊢; omega) follows
      have notClosing := (pattern_startsWith pattern).head
        (Rendering.commaTail location (patterns.map Pattern.tokens) ++ rest)
      simp only [List.map_cons, Rendering.commaTail_cons, List.cons_append, List.append_assoc]
      simp [parsePatternTail, first, others]
      intro closing
      simp [closing] at notClosing

theorem reads_patternTail_tuple (location : Location) (patterns : List Pattern)
    (each : ∀ pattern ∈ patterns,
      Reads interpolate parsePattern (fun _ => True) pattern.tokens pattern) :
    Reads interpolate parsePatternTail (· = .rightParen)
      (Rendering.tupleTail location (patterns.map Pattern.tokens)) (patterns, true) := by
  cases patterns with
  | nil =>
      intro count rest _ follows
      simp [parsePatternTail, Rendering.tupleTail, follows]
  | cons pattern patterns => exact reads_patternTail location (pattern :: patterns) each

theorem reads_pattern (pattern : Pattern) (fits : pattern.fits) :
    Reads interpolate parsePattern (fun _ => True) pattern.tokens pattern := by
  induction pattern using Pattern.induction with
  | name bound location =>
      intro count rest _ _
      simp [parsePattern, Pattern.tokens, wordOf, Payload.shown]
  | tuple elements location ih =>
      rw [Pattern.fits, Pattern.fitsAll_eq_all, Bool.and_eq_true, List.all_eq_true] at fits
      obtain ⟨nonempty, allFit⟩ := fits
      cases elements with
      | nil => simp at nonempty
      | cons first others =>
          have each : ∀ pattern ∈ first :: others,
              Reads interpolate parsePattern (fun _ => True) pattern.tokens pattern :=
            fun pattern found => ih pattern found (allFit pattern found)
          rw [List.forall_mem_cons] at each
          intro count rest bound _
          simp only [Pattern.tokens, Rendering.bracketed, Pattern.tokenLists_eq_map, List.map_cons,
            Rendering.tupleElements, List.cons_append, List.append_assoc] at bound ⊢
          have readsFirst := each.1.below (·.pattern) (fun _ => rfl) count
            (Rendering.tupleTail location (others.map Pattern.tokens) ++
              .fixed .rightParen location :: rest)
            (by simp at bound ⊢; omega) trivial
          have readsOthers := (reads_patternTail_tuple location others each.2).below (·.patternTail)
            (fun _ => rfl) count (.fixed .rightParen location :: rest)
            (by simp at bound ⊢; omega) rfl
          have closed := expectClosing_closing .paren location location rest
          simp only [Delimiter.closingKind] at closed
          simp [parsePattern, readsFirst, readsOthers, closed]

/-- Tokens that make a pattern, whatever follows them. -/
structure ReadsPattern (interpolate : List Token → Except Defect Node) (tokens : List Token)
    (pattern : Pattern) : Prop where
  starts : StartsWith (fun kind => kind = .identifier ∨ kind = .leftParen) tokens
  reads : Reads interpolate parsePattern (fun _ => True) tokens pattern

theorem readsPattern_tokens {patterns : List Pattern} (fits : ∀ pattern ∈ patterns, pattern.fits) :
    List.Forall₂ (ReadsPattern interpolate) (patterns.map Pattern.tokens) patterns := by
  rw [List.forall₂_map_left_iff, List.forall₂_same]
  exact fun pattern found =>
    ⟨pattern_startsWith pattern, reads_pattern pattern (fits pattern found)⟩

/-- The parameters of a function are read up to its arrow. -/
theorem reads_parameters {items : List (List Token)} {patterns : List Pattern}
    (each : List.Forall₂ (ReadsPattern interpolate) items patterns) :
    Reads interpolate parseParameters (· = .thinArrow) items.flatten patterns := by
  induction each with
  | nil =>
      intro count rest _ follows
      simp [parseParameters, follows]
  | @cons tokens pattern items patterns first _ ih =>
      intro count rest bound follows
      simp only [List.flatten_cons, List.append_assoc] at bound ⊢
      obtain ⟨token, tail, same, start⟩ := first.starts
      have readsFirst := first.reads count (items.flatten ++ rest) bound trivial
      have others := ih.below (·.parameters) (fun _ => rfl) count rest
        (by simp [same] at bound ⊢; omega) follows
      have notArrow := first.starts.head (items.flatten ++ rest)
      simp [parseParameters, readsFirst, others]
      intro arrow
      simp [arrow] at notArrow

/-! ## Operands -/

/-- The tokens that can follow an expression: closing brackets, and what stands between the parts of
a larger node. -/
def closes : Kind → Bool
  | .rightParen | .rightBracket | .comma | .thenWord | .elseWord | .colon | .statementEnd
  | .blockEnd | .endOfFile => true
  | _ => false

theorem closes_spec {kind : Kind} (closing : closes kind) :
    kind ≠ .bang ∧ precedence kind = 0 ∧ startsArgument kind = false ∧ kind ≠ .dot ∧
      kind ≠ .pipe := by
  cases kind <;> simp_all [closes, precedence, startsArgument]

/-- The tokens after which there are no further arguments. -/
def endsArguments (kind : Kind) : Bool :=
  kind != .bang && precedence kind == 0 && !startsArgument kind

theorem endsArguments_spec {kind : Kind} (ends : endsArguments kind) :
    (kind ≠ .bang ∧ precedence kind ≤ 0) ∧ startsArgument kind = false := by
  simpa [endsArguments] using ends

theorem endsArguments_of_closes {kind : Kind} (closing : closes kind) : endsArguments kind := by
  simp [endsArguments, closes_spec closing]

theorem reads_unary_of_primary {commas : Bool} {follow : Kind → Prop} {tokens : List Token}
    {node : Node} (starts : StartsWith (fun kind => kind ≠ .minus ∧ kind ≠ .not) tokens)
    (reads : Reads interpolate (parsePrimary · interpolate commas) follow tokens node) :
    Reads interpolate (parseUnary · interpolate commas) (fun kind => follow kind ∧ kind ≠ .bang)
      tokens node := by
  intro count rest bound follows
  have primary := reads count rest bound follows.1
  have first := starts.head rest
  simp [parseUnary, first.1, first.2, primary, parsePostfixTail, follows.2]

theorem reads_binary_of_unary {commas : Bool} {follow : Kind → Prop} {tokens : List Token}
    {node : Node} (minimum : Nat)
    (reads : Reads interpolate (parseUnary · interpolate commas) follow tokens node) :
    Reads interpolate (parseBinary · interpolate commas minimum)
      (fun kind => follow kind ∧ precedence kind ≤ minimum) tokens node := by
  intro count rest bound follows
  have unary := reads count rest bound follows.1
  simp [parseBinary, unary, parseBinaryTail, follows.2]

theorem reads_application_of_binary {commas : Bool} {follow : Kind → Prop} {tokens : List Token}
    {node : Node}
    (reads : Reads interpolate (parseBinary · interpolate commas 0) follow tokens node) :
    Reads interpolate (parseApplication · interpolate commas)
      (fun kind => follow kind ∧ startsArgument kind = false) tokens node := by
  intro count rest bound follows
  have binary := reads count rest bound follows.1
  simp [parseApplication, binary, parseArguments, parseJuxtaposed, follows.2]

theorem reads_expression_of_application {commas : Bool} {follow : Kind → Prop}
    {tokens : List Token} {node : Node}
    (reads : Reads interpolate (parseApplication · interpolate commas) follow tokens node) :
    Reads interpolate (parseExpression · interpolate commas)
      (fun kind => follow kind ∧ kind ≠ .dot ∧ kind ≠ .pipe) tokens node := by
  intro count rest bound follows
  have application := reads count rest bound follows.1
  simp [parseExpression, parseDotChain, application, parseDotTail, parsePipeTail, follows.2.1,
    follows.2.2]

/-- The tokens that the atomic parts of an expression start with. -/
def startsOperand : Kind → Bool
  | .identifier | .integer | .float | .string | .trueWord | .falseWord | .leftParen
  | .leftBracket => true
  | _ => false

theorem startsOperand_spec {kind : Kind} (starts : startsOperand kind) :
    startsArgument kind = true ∧ precedence kind = 0 ∧ kind ≠ .minus ∧ kind ≠ .not ∧
      kind ≠ .bang ∧ kind ≠ .rightParen ∧ kind ≠ .rightBracket ∧ kind ≠ .endOfFile := by
  cases kind <;> simp_all [startsOperand, startsArgument, precedence]

/-- An operand in front of another one is not part of a larger one. -/
theorem separate_of_startsOperand {kind : Kind} (starts : startsOperand kind) :
    kind ≠ .bang ∧ precedence kind ≤ 0 := by
  have spec := startsOperand_spec starts
  exact ⟨spec.2.2.2.2.1, Nat.le_of_eq spec.2.1⟩

/-- Tokens that make a primary expression, whatever follows them. -/
structure ReadsOperand (interpolate : List Token → Except Defect Node) (tokens : List Token)
    (node : Node) : Prop where
  starts : StartsWith (fun kind => startsOperand kind = true) tokens
  primary : ∀ commas,
    Reads interpolate (parsePrimary · interpolate commas) (fun _ => True) tokens node

namespace ReadsOperand

variable {tokens : List Token} {node : Node}

theorem unary (operand : ReadsOperand interpolate tokens node) (commas : Bool) :
    Reads interpolate (parseUnary · interpolate commas) (· ≠ .bang) tokens node := by
  have starts := operand.starts.mono fun kind start =>
    have spec := startsOperand_spec start
    show kind ≠ .minus ∧ kind ≠ .not from ⟨spec.2.2.1, spec.2.2.2.1⟩
  exact (reads_unary_of_primary starts (operand.primary commas)).mono fun _ other =>
    ⟨trivial, other⟩

theorem binary (operand : ReadsOperand interpolate tokens node) (commas : Bool) (minimum : Nat) :
    Reads interpolate (parseBinary · interpolate commas minimum)
      (fun kind => kind ≠ .bang ∧ precedence kind ≤ minimum) tokens node :=
  reads_binary_of_unary minimum (operand.unary commas)

theorem application (operand : ReadsOperand interpolate tokens node) (commas : Bool) :
    Reads interpolate (parseApplication · interpolate commas) (fun kind => closes kind) tokens
      node :=
  (reads_application_of_binary (operand.binary commas 0)).mono fun _ closing =>
    have spec := closes_spec closing
    ⟨⟨spec.1, Nat.le_of_eq spec.2.1⟩, spec.2.2.1⟩

end ReadsOperand

theorem reads_expression_of_closed {commas : Bool} {follow : Kind → Prop} {tokens : List Token}
    {node : Node}
    (reads : Reads interpolate (parseApplication · interpolate commas) follow tokens node)
    (closed : ∀ kind, follow kind → closes kind) :
    Reads interpolate (parseExpression · interpolate commas) follow tokens node :=
  (reads_expression_of_application reads).mono fun kind follows =>
    have spec := closes_spec (closed kind follows)
    ⟨follows, spec.2.2.2.1, spec.2.2.2.2⟩

theorem reads_expression_of_binary {commas : Bool} {follow : Kind → Prop} {tokens : List Token}
    {node : Node}
    (reads : Reads interpolate (parseBinary · interpolate commas 0) follow tokens node)
    (follows : ∀ kind, closes kind → follow kind) :
    Reads interpolate (parseExpression · interpolate commas) (fun kind => closes kind) tokens
      node := by
  have application := (reads_application_of_binary reads).mono
    fun kind (closing : closes kind) => ⟨follows kind closing, (closes_spec closing).2.2.1⟩
  exact reads_expression_of_closed application fun _ closing => closing

theorem reads_expression_of_unary {commas : Bool} {follow : Kind → Prop} {tokens : List Token}
    {node : Node} (reads : Reads interpolate (parseUnary · interpolate commas) follow tokens node)
    (follows : ∀ kind, closes kind → follow kind) :
    Reads interpolate (parseExpression · interpolate commas) (fun kind => closes kind) tokens
      node :=
  reads_expression_of_binary (reads_binary_of_unary 0 reads) fun kind closing =>
    ⟨follows kind closing, Nat.le_of_eq (closes_spec closing).2.1⟩

theorem reads_expression_of_primary {commas : Bool} {tokens : List Token} {node : Node}
    (starts : StartsWith (fun kind => kind ≠ .minus ∧ kind ≠ .not) tokens)
    (reads : Reads interpolate (parsePrimary · interpolate commas) (fun kind => closes kind) tokens
      node) :
    Reads interpolate (parseExpression · interpolate commas) (fun kind => closes kind) tokens
      node :=
  reads_expression_of_unary (reads_unary_of_primary starts reads) fun _ closing =>
    ⟨closing, (closes_spec closing).1⟩

theorem ReadsOperand.expression {tokens : List Token} {node : Node}
    (operand : ReadsOperand interpolate tokens node) (commas : Bool) :
    Reads interpolate (parseExpression · interpolate commas) (fun kind => closes kind) tokens
      node :=
  reads_expression_of_closed (operand.application commas) fun _ closing => closing

/-! ## Operators and calls -/

variable (interpolate) in
theorem reads_binaryTail_nil (commas : Bool) (minimum : Nat) (left : Node) :
    Reads interpolate (parseBinaryTail · commas minimum left)
      (fun kind => precedence kind ≤ minimum) [] left := by
  intro count rest _ follows
  simp [parseBinaryTail, follows]

variable (interpolate) in
theorem reads_postfixTail_nil (commas : Bool) (callee : Node) :
    Reads interpolate (parsePostfixTail · commas callee) (· ≠ .bang) [] callee := by
  intro count rest _ follows
  simp [parsePostfixTail, follows]

variable (interpolate) in
theorem reads_arguments_nil (commas : Bool) :
    Reads interpolate (parseArguments · interpolate commas)
      (fun kind => startsArgument kind = false) [] [] := by
  intro count rest _ follows
  simp [parseArguments, parseJuxtaposed, follows]

theorem reads_prefixed {commas : Bool} {follow : Kind → Prop} {tokens : List Token} {node : Node}
    (operator : UnaryOperator) (location : Location)
    (reads : Reads interpolate (parseUnary · interpolate commas) follow tokens node) :
    Reads interpolate (parseUnary · interpolate commas) follow
      (.fixed operator.kind location :: tokens) (.unary operator node location) := by
  intro count rest bound follows
  have inner := reads.below (·.unary commas) (fun _ => rfl) count rest
    (by simp at bound ⊢; omega) follows
  cases operator <;> simp [parseUnary, UnaryOperator.kind, inner]

/-- An operator between two operands is read by itself. -/
theorem ReadsOperand.operator {tokens tokens' : List Token} {left right : Node}
    (readsLeft : ReadsOperand interpolate tokens left)
    (readsRight : ReadsOperand interpolate tokens' right) {kind : Kind}
    (binds : 0 < precedence kind) (location : Location) (commas : Bool) :
    Reads interpolate (parseBinary · interpolate commas 0)
      (fun kind => kind ≠ .bang ∧ precedence kind = 0)
      (tokens ++ .fixed kind location :: tokens') (binaryNode kind left right location) := by
  intro count rest bound follows
  have notBang : kind ≠ .bang := by
    rintro rfl
    simp [precedence] at binds
  have notEnd : kind ≠ .endOfFile := by
    rintro rfl
    simp [precedence] at binds
  have first := readsLeft.unary commas count (.fixed kind location :: (tokens' ++ rest))
    (by simpa using bound) notBang
  have second := (readsRight.binary commas (precedence kind)).below
    (·.binary commas (precedence kind)) (fun _ => rfl) count rest (by simp at bound ⊢; omega)
    ⟨follows.1, by simp [follows.2]⟩
  have read := reads_binaryTail_nil interpolate commas 0 (binaryNode kind left right location)
  have done := read.below (·.binaryTail commas 0 (binaryNode kind left right location))
    (fun _ => rfl) count rest
    (by simp at bound ⊢; omega) (Nat.le_of_eq follows.2)
  simp only [List.append_assoc, List.cons_append]
  simp only [List.nil_append] at done
  simp [parseBinary, first, parseBinaryTail, Nat.ne_of_gt binds, second, done, notEnd]

theorem ReadsOperand.operatorExpression {tokens tokens' : List Token} {left right : Node}
    (readsLeft : ReadsOperand interpolate tokens left)
    (readsRight : ReadsOperand interpolate tokens' right) {kind : Kind}
    (binds : 0 < precedence kind) (location : Location) (commas : Bool) :
    Reads interpolate (parseExpression · interpolate commas) (fun kind => closes kind)
      (tokens ++ .fixed kind location :: tokens') (binaryNode kind left right location) :=
  reads_expression_of_binary (readsLeft.operator readsRight binds location commas)
    fun _ closing => ⟨(closes_spec closing).1, (closes_spec closing).2.1⟩

/-- A call marker makes a call with the arguments that follow it. -/
theorem ReadsOperand.marked {tokens items : List Token} {callee : Node} {nodes : List Node}
    {commas : Bool} {follow : Kind → Prop} (reads : ReadsOperand interpolate tokens callee)
    (location : Location)
    (readsArguments : Reads interpolate (parseArguments · interpolate commas) follow items nodes) :
    Reads interpolate (parseUnary · interpolate commas)
      (fun kind => kind ≠ .bang ∧ follow kind)
      (tokens ++ .fixed .bang location :: items) (.call callee nodes callee.location) := by
  intro count rest bound follows
  simp only [List.append_assoc, List.cons_append] at bound ⊢
  have first := reads.primary commas count (.fixed .bang location :: (items ++ rest)) bound trivial
  have start := startsOperand_spec (reads.starts.head (.fixed .bang location :: (items ++ rest)))
  have arguments := readsArguments.below (·.arguments commas) (fun _ => rfl) count rest
    (by simp at bound ⊢; omega) follows.2
  have done := (reads_postfixTail_nil interpolate commas
    (.call callee nodes callee.location)).below
    (·.postfixTail commas (.call callee nodes callee.location)) (fun _ => rfl) count rest
    (by simp at bound ⊢; omega) follows.1
  simp only [List.nil_append] at done
  simp [parseUnary, start, first, parsePostfixTail, arguments, done]

/-- Operands are read as arguments before other arguments. -/
theorem reads_juxtaposed_append {items : List (List Token)} {nodes : List Node}
    (each : List.Forall₂ (ReadsOperand interpolate) items nodes) {commas : Bool}
    {follow : Kind → Prop} {tokens : List Token} {others : List Node}
    (next : ∀ rest, follow (headToken rest).kind → (headToken (tokens ++ rest)).kind ≠ .bang ∧
      precedence (headToken (tokens ++ rest)).kind ≤ 0)
    (reads : Reads interpolate (parseJuxtaposed · interpolate commas) follow tokens others) :
    Reads interpolate (parseJuxtaposed · interpolate commas) follow (items.flatten ++ tokens)
      (nodes ++ others) := by
  induction each with
  | nil => exact reads
  | @cons item node items nodes first later ih =>
      intro count rest bound follows
      simp only [List.flatten_cons, List.append_assoc] at bound ih ⊢
      have following : (headToken (items.flatten ++ (tokens ++ rest))).kind ≠ .bang ∧
          precedence (headToken (items.flatten ++ (tokens ++ rest))).kind ≤ 0 := by
        cases later with
        | nil => exact next rest follows
        | @cons second _ more _ readsSecond _ =>
            rw [List.flatten_cons, List.append_assoc]
            exact separate_of_startsOperand
              (readsSecond.starts.head (more.flatten ++ (tokens ++ rest)))
      obtain ⟨token, tail, same, -⟩ := first.starts
      have readsFirst := first.binary commas 0 count (items.flatten ++ (tokens ++ rest)) bound
        following
      have readsOthers := ih.below (·.juxtaposed commas) (fun _ => rfl) count rest
        (by simp [same] at bound ⊢; omega) follows
      have start := startsOperand_spec (first.starts.head (items.flatten ++ (tokens ++ rest)))
      rw [List.append_assoc] at readsOthers
      simp [parseJuxtaposed, start.1, readsFirst, readsOthers]

/-- Operands one after the other are read as arguments. -/
theorem reads_juxtaposed {items : List (List Token)} {nodes : List Node}
    (each : List.Forall₂ (ReadsOperand interpolate) items nodes) (commas : Bool) :
    Reads interpolate (parseJuxtaposed · interpolate commas) (fun kind => endsArguments kind)
      items.flatten nodes := by
  have none : Reads interpolate (parseJuxtaposed · interpolate commas)
      (fun kind => endsArguments kind) [] [] := by
    intro count rest _ follows
    simp [parseJuxtaposed, (endsArguments_spec follows).2]
  simpa using reads_juxtaposed_append each (fun rest follows => (endsArguments_spec follows).1) none

/-- A comma would go on with the arguments. -/
theorem reads_arguments_of_juxtaposed {commas : Bool} {follow : Kind → Prop} {tokens : List Token}
    {nodes : List Node}
    (reads : Reads interpolate (parseJuxtaposed · interpolate commas) follow tokens nodes) :
    Reads interpolate (parseArguments · interpolate commas)
      (fun kind => follow kind ∧ kind ≠ .comma) tokens nodes := by
  intro count rest bound follows
  have juxtaposed : parseJuxtaposed _ interpolate commas (tokens ++ rest) = .ok (nodes, rest) :=
    reads count rest bound follows.1
  simp only [parseArguments, run_bind, juxtaposed, ok_bind, run_ite]
  simp [parseCommaArguments, follows.2]

theorem reads_arguments {items : List (List Token)} {nodes : List Node}
    (each : List.Forall₂ (ReadsOperand interpolate) items nodes) (commas : Bool) :
    Reads interpolate (parseArguments · interpolate commas)
      (fun kind => endsArguments kind ∧ kind ≠ .comma) items.flatten nodes :=
  reads_arguments_of_juxtaposed (reads_juxtaposed each commas)

/-- An operand is called with the arguments that follow it. -/
theorem ReadsOperand.called {tokens items : List Token} {callee : Node} {nodes : List Node}
    {commas : Bool} {follow : Kind → Prop} (reads : ReadsOperand interpolate tokens callee)
    (starts : StartsWith (fun kind => kind ≠ .bang ∧ precedence kind ≤ 0) items)
    (nonempty : nodes ≠ [])
    (arguments : Reads interpolate (parseArguments · interpolate commas) follow items nodes) :
    Reads interpolate (parseApplication · interpolate commas) follow (tokens ++ items)
      (.call callee nodes callee.location) := by
  intro count rest bound follows
  rw [List.append_assoc] at bound ⊢
  have readsCallee := reads.binary commas 0 count (items ++ rest) bound (starts.head rest)
  have readsArguments := arguments count rest (by simp at bound ⊢; omega) follows
  simp [parseApplication, readsCallee, readsArguments, nonempty]

/-- An operand before others is called with them as arguments. -/
theorem ReadsOperand.call {tokens : List Token} {callee : Node} {items : List (List Token)}
    {nodes : List Node} (reads : ReadsOperand interpolate tokens callee)
    (each : List.Forall₂ (ReadsOperand interpolate) items nodes) (nonempty : nodes ≠ [])
    (commas : Bool) :
    Reads interpolate (parseApplication · interpolate commas)
      (fun kind => endsArguments kind ∧ kind ≠ .comma) (tokens ++ items.flatten)
      (.call callee nodes callee.location) := by
  refine reads.called ?_ nonempty (reads_arguments each commas)
  cases each with
  | nil => exact absurd rfl nonempty
  | cons first others =>
      exact (first.starts.append _).mono fun _ => separate_of_startsOperand

/-! ## Brackets -/

/-- An expression in parentheses is an operand. -/
theorem ReadsOperand.parenthesized {tokens : List Token} {node : Node} (opening closing : Location)
    (starts : StartsWith (· ≠ .rightParen) tokens)
    (reads : Reads interpolate (parseExpression · interpolate false) (· = .rightParen) tokens
      node) :
    ReadsOperand interpolate
      (.fixed .leftParen opening :: (tokens ++ [.fixed .rightParen closing])) node where
  starts := ⟨_, _, rfl, rfl⟩
  primary commas := by
    intro count rest bound _
    have inner := reads.below (·.expression false) (fun _ => rfl) count
      (.fixed .rightParen closing :: rest) (by simp at bound ⊢; omega) rfl
    have start := starts.head (.fixed .rightParen closing :: rest)
    have closed := expectClosing_closing .paren opening closing rest
    simp only [Delimiter.closingKind] at closed
    simp [parsePrimary, parseGrouped, start, inner, closed]

theorem ReadsOperand.grouped {tokens : List Token} {node : Node} (location : Location)
    (starts : StartsWith (· ≠ .rightParen) tokens)
    (reads : Reads interpolate (parseExpression · interpolate false) (· = .rightParen) tokens
      node) :
    ReadsOperand interpolate (Rendering.bracketed .leftParen .rightParen location tokens) node :=
  .parenthesized location location starts reads

theorem ReadsOperand.unit (location : Location) :
    ReadsOperand interpolate (Rendering.bracketed .leftParen .rightParen location [])
      (.unit location) where
  starts := ⟨_, _, rfl, rfl⟩
  primary commas := by
    intro count rest _ _
    simp [parsePrimary, Rendering.bracketed, parseGrouped]

/-- Operands with commas before them are read as the elements of a tuple. -/
theorem reads_commaTail (location : Location) {items : List (List Token)} {nodes : List Node}
    (each : List.Forall₂ (ReadsOperand interpolate) items nodes) :
    Reads interpolate parseTupleTail (· = .rightParen) (Rendering.commaTail location items)
      nodes := by
  induction each with
  | nil =>
      intro count rest _ follows
      simp [parseTupleTail, follows]
  | @cons tokens node items nodes first others ih =>
      intro count rest bound follows
      have next : closes (headToken (Rendering.commaTail location items ++ rest)).kind := by
        cases items with
        | nil => simp [follows, closes]
        | cons second later => simp [closes]
      simp only [Rendering.commaTail_cons, List.cons_append, List.append_assoc] at bound ⊢
      have readsFirst := (first.expression false).below (·.expression false) (fun _ => rfl) count
        (Rendering.commaTail location items ++ rest) (by simp at bound ⊢; omega) next
      have readsOthers := ih.below (·.tupleTail) (fun _ => rfl) count rest
        (by simp at bound ⊢; omega) follows
      have start := startsOperand_spec
        (first.starts.head (Rendering.commaTail location items ++ rest))
      simp [parseTupleTail, start, readsFirst, readsOthers]

theorem reads_tupleTail (location : Location) {items : List (List Token)} {nodes : List Node}
    (each : List.Forall₂ (ReadsOperand interpolate) items nodes) :
    Reads interpolate parseTupleTail (· = .rightParen) (Rendering.tupleTail location items)
      nodes := by
  cases each with
  | nil =>
      intro count rest _ follows
      simp [parseTupleTail, Rendering.tupleTail, follows]
  | cons first others => exact reads_commaTail location (.cons first others)

/-- Operands in parentheses with commas between them are a tuple. -/
theorem ReadsOperand.tuple (location : Location) {items : List (List Token)} {nodes : List Node}
    (each : List.Forall₂ (ReadsOperand interpolate) items nodes) (nonempty : nodes ≠ []) :
    ReadsOperand interpolate
      (Rendering.bracketed .leftParen .rightParen location (Rendering.tupleElements location items))
      (.tuple nodes location) where
  starts := ⟨_, _, rfl, rfl⟩
  primary commas := by
    intro count rest bound _
    cases each with
    | nil => exact absurd rfl nonempty
    | @cons tokens node items nodes first others =>
        have comma : (headToken (Rendering.tupleTail location items ++
            .fixed .rightParen location :: rest)).kind = .comma := by
          cases items <;> rfl
        simp only [Rendering.bracketed, Rendering.tupleElements, List.cons_append,
          List.append_assoc, List.nil_append] at bound ⊢
        have readsFirst := (first.expression false).below (·.expression false) (fun _ => rfl) count
          (Rendering.tupleTail location items ++ .fixed .rightParen location :: rest)
          (by simp at bound ⊢; omega) (by simp [comma, closes])
        have readsOthers := (reads_tupleTail location others).below (·.tupleTail) (fun _ => rfl)
          count (.fixed .rightParen location :: rest) (by simp at bound ⊢; omega) rfl
        have start := startsOperand_spec (first.starts.head
          (Rendering.tupleTail location items ++ .fixed .rightParen location :: rest))
        have closed := expectClosing_closing .paren location location rest
        simp only [Delimiter.closingKind] at closed
        simp [parsePrimary, parseGrouped, start, readsFirst, comma, readsOthers, closed]

/-- Operands with commas between them are read as the elements of a list. -/
theorem reads_listElements (location : Location) {items : List (List Token)} {nodes : List Node}
    (each : List.Forall₂ (ReadsOperand interpolate) items nodes) :
    Reads interpolate (parseListElements · interpolate) (· = .rightBracket)
      (Rendering.separated location items) nodes := by
  induction each with
  | nil =>
      intro count rest _ follows
      simp [parseListElements, Rendering.separated, follows]
  | @cons tokens node items nodes first others ih =>
      intro count rest bound follows
      have start := startsOperand_spec
        (first.starts.head (Rendering.commaTail location items ++ rest))
      cases others with
      | nil =>
          simp only [Rendering.separated, Rendering.commaTail_nil, List.append_nil,
            List.nil_append] at bound start ⊢
          have readsFirst := first.expression false count rest bound (by simp [follows, closes])
          simp [parseListElements, start, readsFirst, follows]
      | @cons second _ later _ _ _ =>
          simp only [Rendering.separated, Rendering.commaTail_cons, List.append_assoc,
            List.cons_append] at bound start ih ⊢
          have readsFirst := first.expression false count
            (.fixed .comma location :: (second ++ (Rendering.commaTail location later ++ rest)))
            bound rfl
          have readsOthers := ih.below (·.listElements) (fun _ => rfl) count rest
            (by simp at bound ⊢; omega) follows
          simp only [List.append_assoc] at readsOthers
          simp [parseListElements, start, readsFirst, readsOthers]

/-- Operands in brackets with commas between them are a list. -/
theorem ReadsOperand.list (location : Location) {items : List (List Token)} {nodes : List Node}
    (each : List.Forall₂ (ReadsOperand interpolate) items nodes) :
    ReadsOperand interpolate
      (Rendering.bracketed .leftBracket .rightBracket location (Rendering.separated location items))
      (.list nodes location) where
  starts := ⟨_, _, rfl, rfl⟩
  primary commas := by
    intro count rest bound _
    have elements := (reads_listElements location each).below (·.listElements) (fun _ => rfl) count
      (.fixed .rightBracket location :: rest)
      (by simp [Rendering.bracketed] at bound ⊢; omega) rfl
    have closed := expectClosing_closing .bracket location location rest
    simp only [Delimiter.closingKind] at closed
    simp [parsePrimary, Rendering.bracketed, elements, closed]

/-! ## Literals -/

theorem ReadsOperand.identifier (name : String) (location : Location) :
    ReadsOperand interpolate [⟨.identifier, .text name, location⟩] (.identifier name location) where
  starts := ⟨_, _, rfl, rfl⟩
  primary commas := by
    intro count rest _ _
    simp [parsePrimary, wordOf, Payload.shown]

theorem ReadsOperand.integer (value : Int) (location : Location) :
    ReadsOperand interpolate [⟨.integer, .integer value, location⟩] (.integer value location) where
  starts := ⟨_, _, rfl, rfl⟩
  primary commas := by
    intro count rest _ _
    simp [parsePrimary]

theorem ReadsOperand.float (value : Float) (location : Location) :
    ReadsOperand interpolate [⟨.float, .float value, location⟩] (.float value location) where
  starts := ⟨_, _, rfl, rfl⟩
  primary commas := by
    intro count rest _ _
    simp [parsePrimary]

theorem ReadsOperand.boolean (value : Bool) (location : Location) :
    ReadsOperand interpolate
      [⟨if value then .trueWord else .falseWord, .boolean value, location⟩]
      (.boolean value location) where
  starts := ⟨_, _, rfl, by cases value <;> rfl⟩
  primary commas := by
    intro count rest _ _
    cases value <;> simp [parsePrimary]

theorem ReadsOperand.template {segments : List Segment} {parts : List (Part Node)}
    (location : Location) (reads : parseParts interpolate segments = .ok parts) :
    ReadsOperand interpolate [⟨.string, .segments segments, location⟩]
      (.template parts location) where
  starts := ⟨_, _, rfl, rfl⟩
  primary commas := by
    intro count rest _ _
    simp [parsePrimary, reads]

end Rules

end Offside.Tree
