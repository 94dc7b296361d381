import Offside.Proofs.Tree.Reading

/-!
# Running the rules of the grammar

What the tokens in front of a rule make it do. A conditional is read in parts: its condition, the
branch after its `then` or its colon, and perhaps the branch after its `else`.
-/

namespace Offside.Tree

open Token (Kind)

/-! ## The tokens in front -/

/-- The tokens that end a statement outside of blocks. -/
def endsToplevel : Kind → Bool
  | .endOfFile | .statementEnd => true
  | _ => false

/-- What holds of the two kinds of tokens that end a statement. -/
theorem forall_endsToplevel (holds : Kind → Prop) (endOfFile : holds .endOfFile)
    (statementEnd : holds .statementEnd) (kind : Kind) (ends : endsToplevel kind) :
    holds kind := by
  cases kind <;> first | exact endOfFile | exact statementEnd | cases ends

/-- The tokens that a statement starts with. -/
def startsStatement : Kind → Bool
  | .forWord | .whileWord | .minus => true
  | kind => startsArgument kind

theorem startsStatement_of_ends {kind : Kind} (ends : endsToplevel kind) :
    startsStatement kind = false :=
  forall_endsToplevel (startsStatement · = false) rfl rfl kind ends

/-- The tokens after the first one; the end of file stays. -/
def next (tokens : List Token) : List Token :=
  if (headToken tokens).kind = .endOfFile then tokens else tokens.tail

/-- The tokens after the ends of statements in front. -/
def skip (tokens : List Token) : List Token :=
  tokens.dropWhile fun token => token.kind = .statementEnd

theorem run_advance_eq (tokens : List Token) :
    advance tokens = .ok (headToken tokens, next tokens) := rfl

theorem run_skipSeparators (tokens : List Token) :
    skipSeparators tokens = .ok ((), skip tokens) := rfl

theorem run_expectClosing (delimiter : Delimiter) (opened : Location) (tokens : List Token) :
    expectClosing delimiter opened tokens =
      if (headToken tokens).kind = delimiter.closingKind then .ok ((), next tokens)
      else if (headToken tokens).kind = .endOfFile then
        .error (.unclosed delimiter opened (headToken tokens))
      else fail delimiter.expectation tokens := by
  simp only [expectClosing, run_bind, run_peek, ok_bind, run_ite]
  rfl

/-- The second token, if it is of another kind than the first. -/
theorem headToken_tail_kind {tokens : List Token} {kind : Kind} (second : secondKind tokens = kind)
    (other : (headToken tokens).kind ≠ kind) : (headToken tokens.tail).kind = kind := by
  match tokens with
  | [] => exact absurd second other
  | [_] => exact absurd second other
  | _ :: _ :: _ => exact second

theorem next_of_kind {tokens : List Token} {kind : Kind} (here : (headToken tokens).kind = kind)
    (inner : kind ≠ .endOfFile) : next tokens = tokens.tail := by
  rw [next, if_neg (by rwa [here])]

theorem next_cons {token : Token} (inner : token.kind ≠ .endOfFile) (rest : List Token) :
    next (token :: rest) = rest :=
  if_neg inner

/-- Whether a list starts with an `else` after the end of a statement. -/
def ElseAhead (tokens : List Token) : Prop :=
  (headToken tokens).kind = .statementEnd ∧ secondKind tokens = .elseWord

theorem acceptElse_of_head {tokens : List Token} (here : (headToken tokens).kind = .elseWord) :
    acceptElse tokens = .ok (true, next tokens) := by
  simp [acceptElse, here, run_advance_eq]

theorem acceptElse_of_ahead {tokens : List Token} (ahead : ElseAhead tokens) :
    acceptElse tokens = .ok (true, next (next tokens)) := by
  simp [acceptElse, ahead.1, ahead.2, run_advance_eq]

theorem acceptElse_of_not {tokens : List Token} (here : (headToken tokens).kind ≠ .elseWord)
    (ahead : ¬ElseAhead tokens) : acceptElse tokens = .ok (false, tokens) := by
  simp only [acceptElse, run_bind, run_get, ok_bind, run_ite, if_neg here]
  exact if_neg (by simpa [ElseAhead] using ahead)

theorem ElseAhead.next {tokens : List Token} (ahead : ElseAhead tokens) :
    (headToken (Tree.next tokens)).kind = .elseWord := by
  rw [next_of_kind ahead.1 (by decide)]
  exact headToken_tail_kind ahead.2 (by simp [ahead.1])

section Rules

variable (below : Level)

/-! ## Bindings -/

/-- A binding is an update of a name, or it starts with a pattern. -/
theorem update_or_pattern (tokens : List Token) :
    (∃ operator, (headToken tokens).kind = .identifier ∧
        updateOperator? (secondKind tokens) = some operator ∧
        (headToken (next tokens)).kind = secondKind tokens) ∨
      ((headToken tokens).kind ≠ .identifier ∨ updateOperator? (secondKind tokens) = none) := by
  by_cases isName : (headToken tokens).kind = .identifier
  · cases found : updateOperator? (secondKind tokens) with
    | none => exact .inr (.inr rfl)
    | some operator =>
        refine .inl ⟨operator, isName, rfl, ?_⟩
        rw [next_of_kind isName (by decide)]
        refine headToken_tail_kind rfl fun same => ?_
        rw [← same, isName] at found
        cases found
  · exact .inr (.inl isName)

theorem parseBinding_of_update {tokens : List Token} {operator : UpdateOperator}
    (isName : (headToken tokens).kind = .identifier)
    (updates : updateOperator? (secondKind tokens) = some operator) :
    parseBinding below tokens = (do
      let name ← advance
      let _ ← advance
      let value ← below.expression true
      return .update (wordOf name) operator value name.location : Parser Node) tokens := by
  simp only [parseBinding, run_bind, run_get, ok_bind, isName, updates]
  rfl

theorem parseBinding_of_pattern {tokens : List Token}
    (other : (headToken tokens).kind ≠ .identifier ∨ updateOperator? (secondKind tokens) = none) :
    parseBinding below tokens = (do
      let pattern ← parsePattern below
      let operator ← advance
      let value ← below.expression true
      return .binding pattern value (operator.kind == .declare) pattern.location :
        Parser Node) tokens := by
  rw [parseBinding, run_bind, run_get, ok_bind]
  refine congrFun ?_ tokens
  dsimp only
  split
  case h_1 isName updates => simp [isName, updates] at other
  case h_2 => rfl

/-! ## Conditionals -/

/-- The branch after a condition. -/
def parseThen (statement commas : Bool) : Parser Node := do
  if statement && (← peekKind) = .colon then
    let _ ← advance
    let block ← parseClauseBody below
    return .block block
  else
    let _ ← expect .thenWord .thenWord
    parseBranch below statement commas

/-- The branch after an `else`. -/
def parseElse (statement commas : Bool) : Parser Node := do
  let kind ← peekKind
  if kind = .ifWord then below.conditional statement commas
  else if statement && kind = .colon then
    let _ ← advance
    let block ← parseClauseBody below
    return .block block
  else parseBranch below statement commas

theorem parseConditional_eq (statement commas : Bool) :
    parseConditional below statement commas = do
      let start ← advance
      let condition ← below.expression commas
      let thenBranch ← parseThen below statement commas
      if ← acceptElse then
        let elseBranch ← parseElse below statement commas
        return .conditional condition thenBranch elseBranch start.location
      else return .conditional condition thenBranch (.unit start.location) start.location := by
  have afterElse (finish : Node → Parser Node) : (do
      let kind ← peekKind
      if kind = .ifWord then below.conditional statement commas >>= finish
      else if statement && kind = .colon then
        let _ ← advance
        let block ← parseClauseBody below
        pure (.block block) >>= finish
      else parseBranch below statement commas >>= finish) =
      parseElse below statement commas >>= finish := by
    rw [parseElse, bind_assoc]
    refine bind_congr fun kind => ?_
    split
    · rfl
    · split <;> simp only [bind_assoc]
  refine bind_congr fun start => bind_congr fun condition => ?_
  rw [parseThen, bind_assoc]
  refine bind_congr fun kind => ?_
  simp only [← afterElse]
  split <;> simp only [bind_assoc]

/-! ## Where expressions cannot start -/

variable (interpolate : List Token → Except Defect Node) (commas : Bool)

theorem parsePrimary_fails {tokens : List Token}
    (other : startsStatement (headToken tokens).kind = false) :
    ∃ defect, parsePrimary below interpolate commas tokens = .error defect := by
  rw [parsePrimary, run_bind, run_peek, ok_bind]
  dsimp only
  generalize (headToken tokens).kind = kind at other ⊢
  cases kind <;> first | exact ⟨_, rfl⟩ | cases other

theorem fails_bind {α β : Type} {parser : Parser α} {goOn : α → Parser β} {tokens : List Token}
    (fails : ∃ defect, parser tokens = .error defect) :
    ∃ defect, (parser >>= goOn) tokens = .error defect := by
  obtain ⟨defect, found⟩ := fails
  exact ⟨defect, by rw [run_bind, found]; rfl⟩

theorem expect_fails {kind : Kind} (expectation : Expectation) {tokens : List Token}
    (other : (headToken tokens).kind ≠ kind) :
    ∃ defect, expect kind expectation tokens = .error defect :=
  ⟨_, by rw [run_expect, if_neg other]; rfl⟩

theorem expectClosing_fails {delimiter : Delimiter} (opened : Location) {tokens : List Token}
    (other : (headToken tokens).kind ≠ delimiter.closingKind) :
    ∃ defect, expectClosing delimiter opened tokens = .error defect := by
  rw [run_expectClosing, if_neg other]
  split
  · exact ⟨_, rfl⟩
  · exact ⟨_, rfl⟩

theorem parsePattern_fails {tokens : List Token} (ends : endsToplevel (headToken tokens).kind) :
    ∃ defect, parsePattern below tokens = .error defect := by
  have isNot (kind : Kind) (inner : endsToplevel kind = false) :
      (headToken tokens).kind ≠ kind := by
    rintro rfl
    simp [inner] at ends
  refine ⟨.ofToken .pattern (headToken tokens), ?_⟩
  simp [parsePattern, isNot .identifier rfl, isNot .leftParen rfl, fail]

theorem parseUnary_fails {tokens : List Token}
    (other : startsStatement (headToken tokens).kind = false) :
    ∃ defect, parseUnary below interpolate commas tokens = .error defect := by
  have isNot (kind : Kind) (starts : startsStatement kind) : (headToken tokens).kind ≠ kind := by
    rintro rfl
    simp [other] at starts
  obtain ⟨defect, found⟩ := parsePrimary_fails below interpolate commas other
  refine ⟨defect, ?_⟩
  simp only [parseUnary, run_bind, run_peek, ok_bind, run_accept, if_neg (isNot .minus rfl),
    if_neg (isNot .not rfl), run_ite, found]
  rfl

theorem parseExpression_fails {tokens : List Token}
    (other : startsStatement (headToken tokens).kind = false) :
    ∃ defect, parseExpression below interpolate commas tokens = .error defect :=
  fails_bind (fails_bind (fails_bind (fails_bind
    (parseUnary_fails below interpolate commas other))))

theorem parseStatement_fails {tokens : List Token}
    (other : startsStatement (headToken tokens).kind = false) :
    ∃ defect, parseStatement below interpolate tokens = .error defect := by
  have quiet : startsBinding tokens = false := by
    unfold startsBinding
    generalize (headToken tokens).kind = kind at other
    cases kind <;> first | rfl | cases other
  obtain ⟨defect, found⟩ := parseExpression_fails below interpolate true other
  refine ⟨defect, ?_⟩
  rw [parseStatement, run_bind, run_get, ok_bind, ← found]
  generalize (headToken tokens).kind = kind at other
  cases kind <;> first | (simp [quiet]; done) | cases other

/-- What may follow a statement: the end of its block, or the end of the statement and more. -/
def parseFurther (terminator : Kind) (statement : Node) : Parser (List Node) := do
  let kind ← peekKind
  if kind = terminator || kind = .endOfFile then return [statement]
  else
    let _ ← expect .statementEnd .endOfStatement
    let rest ← below.statements terminator
    return statement :: rest

theorem parseStatements_eq (terminator : Kind) :
    parseStatements below interpolate terminator = (do
      skipSeparators
      let kind ← peekKind
      if kind = terminator || kind = .endOfFile then return []
      else
        let statement ← parseStatement below interpolate
        parseFurther below terminator statement : Parser (List Node)) := rfl

/-- Statements at the end of file: there are none. -/
theorem parseStatements_at_end (terminator : Kind) {tokens : List Token}
    (isEnd : (headToken (skip tokens)).kind = .endOfFile) :
    parseStatements below interpolate terminator tokens = .ok ([], skip tokens) := by
  simp [parseStatements, run_skipSeparators, isEnd]

theorem skip_eq_self {tokens : List Token} (other : (headToken tokens).kind ≠ .statementEnd) :
    skip tokens = tokens := by
  cases tokens with
  | nil => rfl
  | cons token rest => exact List.dropWhile_cons_of_neg (by simpa using other)

theorem skip_of_endOfFile {tokens : List Token} (isEnd : (headToken tokens).kind = .endOfFile) :
    skip tokens = tokens :=
  skip_eq_self (by rw [isEnd]; decide)

end Rules

/-! ## Whole programs -/

/-- Statements up to the end of file. -/
def parseProgram (level : Level) : Parser (List Node) := do
  let statements ← level.statements .endOfFile
  let _ ← expect .endOfFile .endOfFile
  return statements

theorem parse_eq (tokens : List Token) :
    parse tokens =
      (runRule (parseInterpolation (Token.depthOfTokens tokens)) parseProgram tokens >>=
        fun result => .ok ⟨result.1, (headToken tokens).location⟩) := rfl

end Offside.Tree
