import Offside.Proofs.Tree.ReadingStatements
import Offside.Proofs.Tree.Sequel

/-!
# What stands after the tokens of a rule

A rule that reads tokens up to the end of file reads them in the same way when something else stands
there, provided that this cannot belong to them. Patterns and operands are read whatever comes after
them, and expressions before a closing parenthesis. If no comma stands outside of their brackets, it
also makes no difference to expressions whether commas go on with arguments.

The two ways to read are compared rule by rule, each in terms of the rules below it.
-/

namespace Offside.Tree

open Token (Kind)

/-! ## Rules -/

/-- The rules of a level carry over to those of another one, on fewer than `bound` tokens. -/
structure Level.Carried (sequel : Sequel) (bound : Nat) (below below' : Level) : Prop where
  pattern : sequel.CarriesWithin bound True below.pattern below'.pattern
  patternTail : sequel.CarriesWithin bound False below.patternTail below'.patternTail
  parameters : sequel.CarriesWithin bound True below.parameters below'.parameters
  statements ⦃tokens : List Token⦄ : tokens.length < bound →
    sequel.CarriesUpTo (below.statements .blockEnd) (below'.statements .blockEnd) tokens
  statement : sequel.CarriesWithin bound sequel.Stops below.statement below'.statement
  conditional (statement : Bool) ⦃commas commas' : Bool⦄ ⦃tokens : List Token⦄ :
    (commas' → commas) → tokens.length < bound →
      (headToken (sequel.alone tokens)).kind = .ifWord →
      sequel.Carries (commas = commas') sequel.Stops (below.conditional statement commas)
        (below'.conditional statement commas') tokens
  expression : sequel.CarriesModes bound below.expression below'.expression
  dotChain : sequel.CarriesModes bound below.dotChain below'.dotChain
  dotTail left : sequel.CarriesModes bound (below.dotTail · left) (below'.dotTail · left)
  pipeTail left : sequel.CarriesModes bound (below.pipeTail · left) (below'.pipeTail · left)
  application : sequel.CarriesModes bound below.application below'.application
  arguments : sequel.CarriesModes bound below.arguments below'.arguments
  juxtaposed : sequel.CarriesModes bound below.juxtaposed below'.juxtaposed
  commaArguments : sequel.CarriesWithin bound sequel.Stops below.commaArguments
    below'.commaArguments
  binary minimum : sequel.CarriesModes bound (below.binary · minimum) (below'.binary · minimum)
  binaryTail minimum left :
    sequel.CarriesModes bound (below.binaryTail · minimum left) (below'.binaryTail · minimum left)
  unary : sequel.CarriesModes bound below.unary below'.unary
  postfixTail callee :
    sequel.CarriesModes bound (below.postfixTail · callee) (below'.postfixTail · callee)
  tupleTail : sequel.CarriesWithin bound False below.tupleTail below'.tupleTail
  listElements : sequel.CarriesWithin bound False below.listElements below'.listElements

namespace Level.Carried

open Sequel (stuck_expectClosing)

variable {sequel : Sequel} {bound count : Nat} {below below' : Level}
  {interpolate interpolate' : List Token → Except Defect Node}
  (carried : below.Carried sequel bound below') (consumes : below.Consumes interpolate count)

include carried consumes

/-! ## Patterns -/

theorem parsePatternTail : sequel.CarriesWithin (bound + 1) False (Tree.parsePatternTail below)
    (Tree.parsePatternTail below') := by
  intro tokens short
  refine .accept False.elim rfl (fun rest _ => .test False.elim (fun _ => .pure _) fun _ => ?_)
    fun _ => .pure _
  refine .bind (consumes.pattern _).takes ((carried.pattern (by omega)).mono id False.elim)
    fun _ _ _ => ?_
  exact .bind (consumes.patternTail _).takes (carried.patternTail (by omega)) fun _ _ _ => .pure _

theorem parsePattern : sequel.CarriesWithin (bound + 1) True (Tree.parsePattern below)
    (Tree.parsePattern below') := by
  intro tokens short
  cases tokens with
  | nil => exact .of_error (parsePattern_fails below sequel.ends)
  | cons token rest =>
      have shorter : rest.length < bound := Nat.lt_of_succ_lt_succ short
      refine .peek_cons (.accept_cons (by decide) (.inl trivial) (fun _ => .pure _) fun _ =>
        .accept_cons (by decide) (.inl trivial) (fun _ => ?_) fun _ => .of_error ⟨_, rfl⟩)
      refine .bind (consumes.pattern _).takes (carried.pattern shorter) fun _ _ _ => ?_
      exact .bindClosed (consumes.patternTail _).takes (carried.patternTail (by omega))
        (fun _ _ => stuck_expectClosing _) fun _ _ _ => .expectClosing fun _ => .pure _

theorem parseParameters : sequel.CarriesWithin (bound + 1) True (Tree.parseParameters below)
    (Tree.parseParameters below') := by
  intro tokens short
  cases tokens with
  | nil =>
      refine .of_error ?_
      rw [Tree.parseParameters, run_bind, run_peekKind, ok_bind, if_neg (sequel.head_alone_ne rfl)]
      exact fails_bind (parsePattern_fails below sequel.ends)
  | cons token rest =>
      refine .peekKind_cons (.ite (fun _ => .pure _) fun _ => ?_)
      refine .bindFirst (consumes.parsePattern _).first (carried.parsePattern consumes short)
        fun _ _ shorter => ?_
      exact .bind (consumes.parameters _).takes (carried.parameters (by omega)) fun _ _ _ => .pure _

/-! ## Blocks and clauses -/

omit consumes in
theorem parseBlock : sequel.CarriesWithin (bound + 1) True (Tree.parseBlock below)
    (Tree.parseBlock below') := by
  intro tokens short
  refine .expect rfl fun _ rest shorter => ?_
  exact (carried.statements (by omega)).thenExpect rfl fun _ _ _ => .pure _

theorem parseClauseBody : sequel.CarriesWithin bound sequel.Stops (Tree.parseClauseBody below)
    (Tree.parseClauseBody below') := by
  intro tokens short
  refine .test (fun stop => iff_of_false (ne_of_stops stop.head rfl) (sequel.head_alone_ne rfl))
    (fun _ => ?_) fun _ => ?_
  · exact (carried.parseBlock (by omega)).mono id fun _ => trivial
  · exact .bind (consumes.statement _).takes (carried.statement short) fun _ _ _ => .pure _

/-! ## Bindings and conditionals -/

variable {tokens : List Token}

theorem parseBinding (short : tokens.length < bound + 1)
    (binds : startsBinding (sequel.alone tokens)) :
    sequel.Carries True sequel.Stops (Tree.parseBinding below) (Tree.parseBinding below')
      tokens := by
  have pattern (other : ∀ more, (headToken (tokens ++ more)).kind ≠ .identifier ∨
      updateOperator? (secondKind (tokens ++ more)) = none) :
      sequel.Carries True sequel.Stops (Tree.parseBinding below) (Tree.parseBinding below')
        tokens := by
    refine .of_eq (parseBinding_of_pattern below (other _))
      (parseBinding_of_pattern below' (other _))
      (.bind_of (consumes.parsePattern _).takes (carried.parsePattern consumes short)
        (consumes.operator_parsePattern binds (other _)) (fun _ _ _ _ => .inl trivial)
        fun _ later operator _ => ?_)
    refine .advance (isInner_of_isBindingOperator operator) fun _ rest _ => ?_
    exact .bind (consumes.expression _ _).takes (carried.expression.within true id (by omega))
      fun _ _ _ => .pure _
  -- An update is told by its second token, every other binding is read as a pattern.
  cases tokens with
  | nil => cases (startsBinding_of_ends sequel.ends).symm.trans binds
  | cons token rest =>
      by_cases isName : token.kind = .identifier
      · cases rest with
        | nil =>
            simp [startsBinding, Sequel.alone, isName,
              quiet_second isName (stops_of_ends sequel.ends)] at binds
        | cons second rest =>
            cases found : updateOperator? second.kind with
            | none => exact pattern fun _ => .inr found
            | some operator =>
                have inner := isInner_of_updateOperator (Option.isSome_of_eq_some found)
                refine .of_eq (parseBinding_of_update below isName found)
                  (parseBinding_of_update below' isName found)
                  (.advance_cons (by simp [isName]) (.inl trivial)
                    (.advance_cons (ne_endOfFile_of_isInner inner) (.inl trivial) ?_))
                simp only [List.length_cons] at short
                exact .bind (consumes.expression _ _).takes
                  (carried.expression.within true id (by omega)) fun _ _ _ => .pure _
      · exact pattern fun _ => .inl isName

/-- A parser that is not used for bindings. -/
theorem orBinding {same : Prop} {parser parser' goOn goOn' : Parser Node}
    (short : tokens.length < bound + 1) (taken : TakesFirst goOn (sequel.alone tokens))
    (run : parser (sequel.alone tokens) = if startsBinding (sequel.alone tokens) then
      Tree.parseBinding below (sequel.alone tokens) else goOn (sequel.alone tokens))
    (run' : parser' (sequel.joined tokens) = if startsBinding (sequel.joined tokens) then
      Tree.parseBinding below' (sequel.joined tokens) else goOn' (sequel.joined tokens))
    (carries : sequel.Carries same sequel.Stops goOn goOn' tokens) :
    sequel.Carries same sequel.Stops parser parser' tokens := by
  by_cases binds : startsBinding (sequel.alone tokens)
  · rw [if_pos binds] at run
    rw [if_pos (startsBinding_joined sequel binds)] at run'
    exact .of_eq run run' ((carried.parseBinding consumes short binds).mono (fun _ => trivial) id)
  · rw [if_neg binds] at run
    intro result found
    obtain ⟨used, later, split, left, carry⟩ := carries result (run ▸ found)
    refine ⟨used, later, split, left, fun idle free => ?_⟩
    have consumed : ConsumedFirst (sequel.alone tokens) (sequel.alone later) :=
      left ▸ taken result (run ▸ found)
    have quiet := not_startsBinding_joined sequel (by simpa using binds) consumed
      fun nothing => idle (by simp [nothing, Idle])
    rw [run', quiet]
    exact carry idle free

/-- No branch starts at the end of the tokens. -/
theorem parseBranch_nil (statement commas : Bool) (short : 0 < bound) :
    ∃ defect, Tree.parseBranch below statement commas (sequel.alone []) = .error defect := by
  have isNot (kind : Kind) (inner : isInner kind) := sequel.head_alone_ne inner
  have quiet : startsBinding (sequel.alone []) = false := startsBinding_of_ends sequel.ends
  have run : Tree.parseBranch below statement commas (sequel.alone []) =
      below.application commas (sequel.alone []) := by
    simp [Tree.parseBranch, isNot .blockStart rfl, isNot .ifWord rfl, quiet]
  have carries : sequel.Carries (commas = commas) sequel.Stops (below.application commas)
      (below'.application commas) [] := carried.application id short
  rw [run]
  exact carries.stuck (consumes.application commas _).first

variable {commas commas' : Bool} (fewer : commas' → commas)

include fewer

theorem parseBranch (statement : Bool) (short : tokens.length < bound) :
    sequel.Carries (commas = commas') sequel.Stops (Tree.parseBranch below statement commas)
      (Tree.parseBranch below' statement commas') tokens := by
  cases tokens with
  | nil => exact .of_error (carried.parseBranch_nil consumes statement commas short)
  | cons token rest =>
      by_cases isBlock : token.kind = .blockStart
      · have run (level : Level) (commas : Bool) (list : List Token) :
            Tree.parseBranch level statement commas (token :: list) =
              (Tree.parseBlock level >>= fun block => pure (.block block)) (token :: list) := by
          simp [Tree.parseBranch, isBlock]
        exact .of_eq (run ..) (run ..) (.bind (consumes.parseBlock _).takes
          ((carried.parseBlock (by omega)).mono (fun _ => trivial) fun _ => trivial)
          fun _ _ _ => .pure _)
      by_cases isIf : statement && token.kind = .ifWord
      · have run (level : Level) (commas : Bool) (list : List Token) :
            Tree.parseBranch level statement commas (token :: list) =
              level.conditional true commas (token :: list) := by
          simp_all [Tree.parseBranch]
        exact .of_eq (run ..) (run ..)
          (carried.conditional true fewer short
            (of_decide_eq_true (Bool.and_eq_true_iff.mp isIf).2))
      have run (level : Level) (commas : Bool) (list : List Token) :
          Tree.parseBranch level statement commas (token :: list) =
            if statement && startsBinding (token :: list) then
              Tree.parseBinding level (token :: list)
            else level.application commas (token :: list) := by
        simp_all [Tree.parseBranch]
      cases statement with
      | false => exact .of_eq (run ..) (run ..) (carried.application fewer short)
      | true =>
          exact carried.orBinding consumes (by omega) (consumes.application commas _).first (run ..)
            (run ..) (carried.application fewer short)

omit fewer in
/-- The clause after a colon. -/
theorem clause (short : tokens.length < bound)
    (isColon : (headToken (sequel.alone tokens)).kind = .colon) :
    sequel.Carries (commas = commas') sequel.Stops (do
        let _ ← Tree.advance
        let block ← Tree.parseClauseBody below
        return Node.block block : Parser Node)
      (do
        let _ ← Tree.advance
        let block ← Tree.parseClauseBody below'
        return Node.block block : Parser Node) tokens := by
  refine .advance (by rw [isColon]; rfl) fun _ rest _ => ?_
  exact .bind (consumes.parseClauseBody _).takes
    ((carried.parseClauseBody consumes (by omega)).mono (fun _ => trivial) id) fun _ _ _ => .pure _

theorem parseThen (statement : Bool) (short : tokens.length < bound) :
    sequel.Carries (commas = commas') sequel.Stops (Tree.parseThen below statement commas)
      (Tree.parseThen below' statement commas') tokens := by
  refine .test (fun stop => ?_) (fun isColon => ?_) fun _ => ?_
  · have notColon : (headToken (sequel.joined [])).kind ≠ .colon := ne_of_stops stop.head rfl
    have isNot : (headToken (sequel.alone [])).kind ≠ .colon := sequel.head_alone_ne rfl
    simp [notColon, isNot]
  · exact carried.clause consumes short (of_decide_eq_true (Bool.and_eq_true_iff.mp isColon).2)
  · exact .expect rfl fun _ rest _ => carried.parseBranch consumes fewer statement (by omega)

theorem parseElse (statement : Bool) (short : tokens.length < bound) :
    sequel.Carries (commas = commas') sequel.Stops (Tree.parseElse below statement commas)
      (Tree.parseElse below' statement commas') tokens := by
  cases tokens with
  | nil =>
      have notColon : (headToken (sequel.alone [])).kind ≠ .colon := sequel.head_alone_ne rfl
      refine .of_error ?_
      rw [Tree.parseElse, run_bind, run_peekKind, ok_bind, if_neg (sequel.head_alone_ne rfl),
        if_neg (by simp [notColon])]
      exact carried.parseBranch_nil consumes statement commas short
  | cons token rest =>
      refine .peekKind_cons (.ite (carried.conditional statement fewer short) fun _ =>
        .ite (fun isColon => ?_) fun _ => carried.parseBranch consumes fewer statement short)
      exact carried.clause consumes short (of_decide_eq_true (Bool.and_eq_true_iff.mp isColon).2)

theorem parseConditional (statement : Bool) (short : tokens.length < bound + 1)
    (isIf : (headToken (sequel.alone tokens)).kind = .ifWord) :
    sequel.Carries (commas = commas') sequel.Stops (Tree.parseConditional below statement commas)
      (Tree.parseConditional below' statement commas') tokens := by
  rw [parseConditional_eq, parseConditional_eq]
  refine .advance (by rw [isIf]; rfl) fun _ rest _ => ?_
  refine .bind (consumes.expression _ _).takes (carried.expression fewer (by omega)) fun _ _ _ => ?_
  refine .bind (consumes.parseThen statement commas).takes
    (carried.parseThen consumes fewer statement (by omega)) fun _ _ _ => ?_
  refine .acceptElse id (fun _ _ => ?_) (.pure _)
  exact .bind (consumes.parseElse statement commas).takes
    (carried.parseElse consumes fewer statement (by omega)) fun _ _ _ => .pure _

/-! ## Primary expressions -/

omit fewer

theorem parseTupleTail : sequel.CarriesWithin (bound + 1) False (Tree.parseTupleTail below)
    (Tree.parseTupleTail below') := by
  intro tokens short
  refine .accept False.elim rfl (fun rest _ => .test False.elim (fun _ => .pure _) fun _ => ?_)
    fun _ => .pure _
  refine .bind (consumes.expression _ _).takes
    (carried.expression.within false False.elim (by omega)) fun _ _ _ => ?_
  exact .bind (consumes.tupleTail _).takes (carried.tupleTail (by omega)) fun _ _ _ => .pure _

theorem parseGrouped (opened : Location) : sequel.CarriesWithin bound True
    (Tree.parseGrouped below opened) (Tree.parseGrouped below' opened) := by
  intro tokens short
  cases tokens with
  | nil =>
      have notParen : (headToken (sequel.alone [])).kind ≠ .rightParen :=
        forall_endsToplevel (· ≠ .rightParen) (by decide) (by decide) _ sequel.ends
      have carries : sequel.Carries True sequel.Stops (below.expression false)
          (below'.expression false) [] := carried.expression.within false id short
      refine .of_error ?_
      rw [Tree.parseGrouped, run_bind, run_accept, if_neg notParen]
      exact fails_bind (carries.stuck (consumes.expression false _).first)
  | cons token rest =>
      refine .accept_cons (by decide) (.inl trivial) (fun _ => .pure _) fun _ => ?_
      have stuck (first : Node) (later : List Token) (idle : Idle later) : ∃ defect, (do
          if (← peekKind) = .comma then
            let rest ← below.tupleTail
            expectClosing .paren opened
            return .tuple (first :: rest) opened
          else
            expectClosing .paren opened
            return first : Parser Node) (sequel.alone later) = .error defect := by
        have notComma : (headToken (sequel.alone later)).kind ≠ .comma :=
          ne_of_stops (stops_of_ends (sequel.head_of_idle idle)) rfl
        rw [run_bind, run_peekKind, ok_bind, if_neg notComma]
        exact stuck_expectClosing sequel idle
      refine .bindClosed (consumes.expression _ _).takes
        (carried.expression.within false False.elim short) stuck fun first later shorter => ?_
      cases later with
      | nil => exact .of_error (stuck first [] (List.forall_mem_nil _))
      | cons second later =>
          refine .peekKind_cons (.ite (fun _ => ?_) fun _ => .expectClosing fun _ => .pure _)
          exact .bindClosed (consumes.tupleTail _).takes (carried.tupleTail (by omega))
            (fun _ _ => stuck_expectClosing _) fun _ _ _ => .expectClosing fun _ => .pure _

theorem parseLambda (fewer : commas' → commas) (short : tokens.length < bound + 1)
    (isFn : (headToken (sequel.alone tokens)).kind = .fnWord) :
    sequel.Carries (commas = commas') sequel.Stops (Tree.parseLambda below commas)
      (Tree.parseLambda below' commas') tokens := by
  refine .advance (by rw [isFn]; rfl) fun _ rest _ => ?_
  refine .bind_of (consumes.parameters _).takes
    ((carried.parameters (by omega)).mono (fun _ => trivial) id) (consumes.arrow _)
    (fun _ _ _ _ => .inl trivial) fun _ later arrow _ => ?_
  refine .advance (by rw [arrow]; rfl) fun _ rest' _ => ?_
  refine .test (fun stop => iff_of_false (ne_of_stops stop.head rfl) (sequel.head_alone_ne rfl))
    (fun _ => ?_) fun _ => ?_
  · exact .bind (consumes.parseBlock _).takes
      ((carried.parseBlock (by omega)).mono (fun _ => trivial) fun _ => trivial)
      fun _ _ _ => .pure _
  · exact .bind (consumes.expression _ _).takes (carried.expression fewer (by omega))
      fun _ _ _ => .pure _

/-! ## Operators and calls -/

theorem parsePostfixTail (callee : Node) : sequel.CarriesModes (bound + 1)
    (Tree.parsePostfixTail below · callee) (Tree.parsePostfixTail below' · callee) := by
  intro commas commas' tokens fewer short
  refine .accept id rfl (fun rest _ => ?_) fun _ => .pure _
  exact .bind (consumes.arguments _ _).takes (carried.arguments fewer (by omega))
    fun _ _ _ => carried.postfixTail _ fewer (by omega)

theorem parseBinaryTail (minimum : Nat) (left : Node) : sequel.CarriesModes (bound + 1)
    (Tree.parseBinaryTail below · minimum left) (Tree.parseBinaryTail below' · minimum left) := by
  intro commas commas' tokens fewer short
  cases tokens with
  | nil =>
      refine .of_idle (List.forall_mem_nil _) ?_ (fun stop => ?_) (.pure left)
      · simp [Tree.parseBinaryTail, (closes_spec sequel.closes_alone).2.1]
      · simp [Tree.parseBinaryTail, (closes_spec stop.closes).2.1]
  | cons token rest =>
      have shorter := Nat.lt_of_succ_lt_succ short
      refine .peekKind_cons (.ite (fun _ => .pure _) fun binds => ?_)
      refine .advance (isInner_of_precedence binds) fun _ later _ => ?_
      exact .bind (consumes.binary _ _ _).takes (carried.binary _ fewer (by omega))
        fun _ _ _ => carried.binaryTail _ _ fewer (by omega)

/-- An argument after a comma, and those after it. -/
theorem commaArgument : sequel.CarriesWithin bound sequel.Stops (do
      let argument ← below.application false
      let rest ← below.commaArguments
      return argument :: rest : Parser (List Node))
    (do
      let argument ← below'.application false
      let rest ← below'.commaArguments
      return argument :: rest : Parser (List Node)) := by
  intro tokens short
  refine .bind (consumes.application _ _).takes (carried.application.within false id short)
    fun _ _ _ => ?_
  exact .bind (consumes.commaArguments _).takes (carried.commaArguments (by omega))
    fun _ _ _ => .pure _

theorem parseCommaArguments : sequel.CarriesWithin (bound + 1) sequel.Stops
    (Tree.parseCommaArguments below) (Tree.parseCommaArguments below') := by
  intro tokens short
  exact .accept id rfl (fun rest _ => carried.commaArgument consumes (by omega)) fun _ => .pure _

/-- If no comma outside of brackets is consumed, there are no further arguments. -/
theorem noCommaArguments (arguments : List Node) (short : tokens.length < bound + 1) :
    sequel.Carries False sequel.Stops
      (Tree.parseCommaArguments below >>= fun rest => pure (arguments ++ rest)) (pure arguments)
      tokens := by
  by_cases here : (headToken (sequel.alone tokens)).kind = .comma
  · cases tokens with
    | nil => exact absurd here (sequel.head_alone_ne rfl)
    | cons token rest =>
        have isComma : token.kind = .comma := here
        have run : Tree.parseCommaArguments below (sequel.alone (token :: rest)) = (do
            let argument ← below.application false
            let rest ← below.commaArguments
            return argument :: rest : Parser (List Node)) (sequel.alone rest) := by
          simp [Tree.parseCommaArguments, Sequel.alone, isComma]
        have shorter : rest.length < bound := Nat.lt_of_succ_lt_succ short
        rw [Sequel.Carries, run_bind, run]
        refine Returns.bind (carried.commaArgument consumes shorter) ?_
        rintro ⟨others, remaining⟩ ⟨used, later, rfl, rfl, -⟩
        refine .ok ⟨token :: used, later, rfl, rfl, fun _ free => ?_⟩
        simp [commaFree, isComma] at free
  · exact .of_eq (by simp [Tree.parseCommaArguments, here]) rfl (.pure arguments)

theorem parseDotTail (left : Node) : sequel.CarriesModes (bound + 1)
    (Tree.parseDotTail below · left) (Tree.parseDotTail below' · left) := by
  intro commas commas' tokens fewer short
  refine .accept id rfl (fun rest _ => .expect rfl fun name later _ => ?_) fun _ => .pure _
  refine .skip id rfl fun more _ => ?_
  exact .bind (consumes.arguments _ _).takes (carried.arguments fewer (by omega))
    fun _ _ _ => carried.dotTail _ fewer (by omega)

theorem parsePipeTail (left : Node) : sequel.CarriesModes (bound + 1)
    (Tree.parsePipeTail below · left) (Tree.parsePipeTail below' · left) := by
  intro commas commas' tokens fewer short
  cases tokens with
  | nil =>
      refine .of_idle (List.forall_mem_nil _) ?_ (fun stop => ?_) (.pure left)
      · simp [Tree.parsePipeTail, (closes_spec sequel.closes_alone).2.2.2.2]
      · simp [Tree.parsePipeTail, (closes_spec stop.closes).2.2.2.2]
  | cons token rest =>
      refine .peek_cons (.accept_cons (by decide) (.inr rfl) (fun _ => ?_) fun _ => .pure _)
      exact .bind (consumes.dotChain _ _).takes
        (carried.dotChain fewer (Nat.lt_of_succ_lt_succ short))
        fun _ _ _ => carried.pipeTail _ fewer (by simp at short; omega)

/-! ## Loops -/

theorem parseFor (short : tokens.length < bound + 1)
    (isFor : (headToken (sequel.alone tokens)).kind = .forWord) :
    sequel.Carries True sequel.Stops (Tree.parseFor below) (Tree.parseFor below') tokens := by
  refine .advance (by rw [isFor]; rfl) fun _ rest _ => ?_
  refine .bind (consumes.pattern _).takes ((carried.pattern (by omega)).mono id fun _ => trivial)
    fun _ _ _ => .expect rfl fun _ rest' _ => ?_
  refine .bind (consumes.expression _ _).takes (carried.expression.within true id (by omega))
    fun _ _ _ => .expect rfl fun _ _ _ => ?_
  exact .bind (consumes.parseClauseBody _).takes (carried.parseClauseBody consumes (by omega))
    fun _ _ _ => .pure _

theorem parseWhile (short : tokens.length < bound + 1)
    (isWhile : (headToken (sequel.alone tokens)).kind = .whileWord) :
    sequel.Carries True sequel.Stops (Tree.parseWhile below) (Tree.parseWhile below') tokens := by
  refine .advance (by rw [isWhile]; rfl) fun _ rest _ => ?_
  refine .bind (consumes.expression _ _).takes (carried.expression.within true id (by omega))
    fun _ _ _ => .expect rfl fun _ _ _ => ?_
  exact .bind (consumes.parseClauseBody _).takes (carried.parseClauseBody consumes (by omega))
    fun _ _ _ => .pure _

/-! ## Rules that interpolate -/

variable (interpolates : ∀ inner node, interpolate inner = .ok node → interpolate' inner = .ok node)

include interpolates

omit carried consumes in
theorem parseParts {segments : List Segment} : Returns (parseParts interpolate segments)
    fun parts => Tree.parseParts interpolate' segments = .ok parts := by
  induction segments with
  | nil => exact .ok rfl
  | cons segment rest ih =>
      cases segment with
      | text content =>
          refine ih.bind fun parts found => .ok ?_
          rw [Tree.parseParts, found]
          rfl
      | expression tokens source =>
          have expression : Returns (interpolate tokens) (interpolate' tokens = .ok ·) :=
            interpolates tokens
          refine expression.bind fun node found => ih.bind fun parts found' => .ok ?_
          rw [Tree.parseParts, found, found']
          rfl

/-- Operands are read alike whatever comes after them. -/
theorem operand {token : Token} {rest : List Token} (starts : startsOperand token.kind)
    (short : rest.length < bound) (commas commas' : Bool) :
    sequel.Carries True True (Tree.parsePrimary below interpolate commas)
      (Tree.parsePrimary below' interpolate' commas') (token :: rest) := by
  refine .peek_cons ?_
  cases kind : token.kind with
  | integer =>
      cases token.payload with
      | integer value => exact .advance_cons (by simp [kind]) (.inl trivial) (.pure _)
      | _ => exact .of_error ⟨_, rfl⟩
  | float =>
      cases token.payload with
      | float value => exact .advance_cons (by simp [kind]) (.inl trivial) (.pure _)
      | _ => exact .of_error ⟨_, rfl⟩
  | string =>
      cases token.payload with
      | segments segments =>
          refine .advance_cons (by simp [kind]) (.inl trivial) ?_
          exact .bind .lift (.lift (parseParts interpolates)) fun _ _ _ => .pure _
      | _ => exact .of_error ⟨_, rfl⟩
  | trueWord | falseWord | identifier =>
      exact .advance_cons (by simp [kind]) (.inl trivial) (.pure _)
  | leftParen =>
      exact .advance_cons (by simp [kind]) (.inl trivial) (carried.parseGrouped consumes _ short)
  | leftBracket =>
      refine .advance_cons (by simp [kind]) (.inl trivial) ?_
      exact .bindClosed (consumes.listElements _).takes (carried.listElements short)
        (fun _ _ => stuck_expectClosing _) fun _ _ _ => .expectClosing fun _ => .pure _
  | _ => simp [kind, startsOperand] at starts

theorem parsePrimary : sequel.CarriesModes (bound + 1) (Tree.parsePrimary below interpolate)
    (Tree.parsePrimary below' interpolate') := by
  intro commas commas' tokens fewer short
  cases tokens with
  | nil =>
      exact .of_error (parsePrimary_fails _ _ _ (startsStatement_of_ends sequel.ends))
  | cons token rest =>
      by_cases starts : startsOperand token.kind
      · exact (carried.operand consumes interpolates starts (Nat.lt_of_succ_lt_succ short) commas
          commas').mono (fun _ => trivial) fun _ => trivial
      · refine .peek_cons ?_
        cases kind : token.kind with
        | fnWord => exact carried.parseLambda consumes fewer short kind
        | ifWord => exact carried.parseConditional consumes fewer false short kind
        | _ => first | exact .of_error ⟨_, rfl⟩ | simp [kind, startsOperand] at starts

theorem parseUnary : sequel.CarriesModes (bound + 1) (Tree.parseUnary below interpolate)
    (Tree.parseUnary below' interpolate') := by
  intro commas commas' tokens fewer short
  cases tokens with
  | nil => exact .of_error (parseUnary_fails _ _ _ (startsStatement_of_ends sequel.ends))
  | cons token rest =>
      have shorter := Nat.lt_of_succ_lt_succ short
      refine .peek_cons (.accept_cons (by decide) (.inr rfl) (fun _ => ?_) fun _ =>
        .accept_cons (by decide) (.inr rfl) (fun _ => ?_) fun _ => ?_)
      · exact .bind (consumes.unary _ _).takes (carried.unary fewer shorter) fun _ _ _ => .pure _
      · exact .bind (consumes.unary _ _).takes (carried.unary fewer shorter) fun _ _ _ => .pure _
      · exact .bind (consumes.parsePrimary _ _).takes
          (carried.parsePrimary consumes interpolates fewer short)
          fun _ _ _ => carried.parsePostfixTail consumes _ fewer (by omega)

theorem parseBinary (minimum : Nat) : sequel.CarriesModes (bound + 1)
    (Tree.parseBinary below interpolate · minimum)
    (Tree.parseBinary below' interpolate' · minimum) := by
  intro commas commas' tokens fewer short
  exact .bind (consumes.parseUnary _ _).takes
    (carried.parseUnary consumes interpolates fewer short)
    fun _ _ _ => carried.parseBinaryTail consumes _ _ fewer (by omega)

theorem parseJuxtaposed : sequel.CarriesModes (bound + 1) (Tree.parseJuxtaposed below interpolate)
    (Tree.parseJuxtaposed below' interpolate') := by
  intro commas commas' tokens fewer short
  refine .test (fun stop => ?_) (fun _ => ?_) fun _ => .pure _
  · rw [(closes_spec stop.closes).2.2.1, (closes_spec sequel.closes_alone).2.2.1]
  · refine .bindFirst (consumes.parseBinary _ _ _).first
      (carried.parseBinary consumes interpolates 0 fewer short) fun _ _ _ => ?_
    exact .bind (consumes.juxtaposed _ _).takes (carried.juxtaposed fewer (by omega))
      fun _ _ _ => .pure _

theorem parseArguments : sequel.CarriesModes (bound + 1) (Tree.parseArguments below interpolate)
    (Tree.parseArguments below' interpolate') := by
  intro commas commas' tokens fewer short
  refine .bind (consumes.parseJuxtaposed _ _).takes
    (carried.parseJuxtaposed consumes interpolates fewer short) fun arguments later _ => ?_
  by_cases same : commas = commas'
  · subst same
    refine .ite (fun _ => ?_) fun _ => .pure _
    exact .bind (consumes.parseCommaArguments _).takes
      ((carried.parseCommaArguments consumes (by omega)).mono (fun _ => trivial) id)
      fun _ _ _ => .pure _
  · -- Only the first parser looks for a comma here, and if it finds one, it consumes it.
    obtain ⟨rfl, rfl⟩ : commas = true ∧ commas' = false := by
      cases commas <;> cases commas' <;> simp_all
    cases none : arguments.isEmpty with
    | true => exact .pure arguments
    | false =>
        exact (carried.noCommaArguments consumes arguments (by omega)).mono (by simp) id

theorem parseApplication : sequel.CarriesModes (bound + 1)
    (Tree.parseApplication below interpolate) (Tree.parseApplication below' interpolate') := by
  intro commas commas' tokens fewer short
  refine .bind (consumes.parseBinary _ _ _).takes
    (carried.parseBinary consumes interpolates 0 fewer short) fun _ _ _ => ?_
  exact .bind (consumes.parseArguments _ _).takes
    (carried.parseArguments consumes interpolates fewer (by omega)) fun _ _ _ => .pure _

theorem parseDotChain : sequel.CarriesModes (bound + 1) (Tree.parseDotChain below interpolate)
    (Tree.parseDotChain below' interpolate') := by
  intro commas commas' tokens fewer short
  exact .bind (consumes.parseApplication _ _).takes
    (carried.parseApplication consumes interpolates fewer short)
    fun _ _ _ => carried.parseDotTail consumes _ fewer (by omega)

theorem parseExpression : sequel.CarriesModes (bound + 1) (Tree.parseExpression below interpolate)
    (Tree.parseExpression below' interpolate') := by
  intro commas commas' tokens fewer short
  exact .bind (consumes.parseDotChain _ _).takes
    (carried.parseDotChain consumes interpolates fewer short)
    fun _ _ _ => carried.parsePipeTail consumes _ fewer (by omega)

theorem parseListElements : sequel.CarriesWithin (bound + 1) False
    (Tree.parseListElements below interpolate) (Tree.parseListElements below' interpolate') := by
  intro tokens short
  refine .test False.elim (fun _ => .pure _) fun _ => ?_
  refine .bind (consumes.parseExpression _ _).takes
    ((carried.parseExpression consumes interpolates).within false False.elim short) fun _ _ _ => ?_
  refine .accept False.elim rfl (fun _ _ => ?_) fun _ => .pure _
  exact .bind (consumes.listElements _).takes (carried.listElements (by omega)) fun _ _ _ => .pure _

theorem parseStatement : sequel.CarriesWithin (bound + 1) sequel.Stops
    (Tree.parseStatement below interpolate) (Tree.parseStatement below' interpolate') := by
  intro tokens short
  cases tokens with
  | nil => exact .of_error (parseStatement_fails _ _ (startsStatement_of_ends sequel.ends))
  | cons token rest =>
      by_cases isFor : token.kind = .forWord
      · refine .of_eq ?_ ?_ (carried.parseFor consumes short isFor)
        · simp [Tree.parseStatement, Sequel.alone, isFor]
        · simp [Tree.parseStatement, Sequel.joined, isFor]
      by_cases isWhile : token.kind = .whileWord
      · refine .of_eq ?_ ?_ (carried.parseWhile consumes short isWhile)
        · simp [Tree.parseStatement, Sequel.alone, isWhile]
        · simp [Tree.parseStatement, Sequel.joined, isWhile]
      by_cases isIf : token.kind = .ifWord
      · have first : (headToken (sequel.alone (token :: rest))).kind = .ifWord := isIf
        have run (level : Level) (interpolate : List Token → Except Defect Node)
            (list : List Token) :
            Tree.parseStatement level interpolate (token :: list) = (do
              let conditional ← Tree.parseConditional level true true
              let left ← Tree.parseDotTail level true conditional
              Tree.parsePipeTail level true left : Parser Node) (token :: list) := by
          simp [Tree.parseStatement, isIf]
        refine .of_eq (run ..) (run ..) (.bind (consumes.parseConditional true true first).takes
          ((carried.parseConditional consumes id true short first).mono (fun _ => rfl) id)
          fun _ _ _ => ?_)
        exact .bind (consumes.parseDotTail _ _ _).takes
          ((carried.parseDotTail consumes _).within true id (by omega))
          fun _ _ _ => (carried.parsePipeTail consumes _).within true id (by omega)
      · exact carried.orBinding consumes short (consumes.parseExpression _ true).first
          (parseStatement_eq below isFor isWhile isIf) (parseStatement_eq below' isFor isWhile isIf)
          ((carried.parseExpression consumes interpolates).within true id short)

omit interpolates in
/-- After ends of statements a block is not closed. -/
theorem parseFurther_idle (statement : Node) {later : List Token} (short : later.length < bound + 1)
    (idle : Idle later) :
    Returns (Tree.parseFurther below .blockEnd statement (sequel.alone later)) fun result =>
      endsToplevel (headToken result.2).kind := by
  rw [Tree.parseFurther, run_bind, run_peekKind, ok_bind]
  split
  · exact .ok (sequel.head_of_idle idle)
  have statements : Returns (below.statements .blockEnd (Tree.next (sequel.alone later)))
      fun result => endsToplevel (headToken result.2).kind := by
    intro result found
    cases later with
    | nil =>
        have isEnd : (headToken (Tree.next (sequel.alone []))).kind = .endOfFile := sequel.last
        rw [((consumes.statements _ _).takes _ found).at_end isEnd, isEnd]
        rfl
    | cons token rest =>
        obtain ⟨separates, idle⟩ := List.forall_mem_cons.mp idle
        rw [Sequel.alone, List.cons_append, next_cons (by simp [separates])] at found
        rcases carried.statements (Nat.lt_of_succ_lt_succ short) result found with
          ends | ⟨used, later, rfl, left, -⟩
        · exact ends
        · rw [left]
          exact sequel.head_of_idle (Idle.of_append idle)
  exact .expect fun _ => statements.bind fun _ ends => .ok ends

theorem parseStatements ⦃tokens : List Token⦄ (short : tokens.length < bound + 1) :
    sequel.CarriesUpTo (Tree.parseStatements below interpolate .blockEnd)
      (Tree.parseStatements below' interpolate' .blockEnd) tokens := by
  rw [parseStatements_eq, parseStatements_eq]
  refine .skipSeparators (fun list isEnd => ?_) fun token rest shorter => ?_
  · rw [run_bind, run_peekKind, ok_bind, if_pos (by simp [isEnd])]
    exact .ok (by rw [isEnd]; rfl)
  refine .unless_cons (.bind (carried.parseStatement consumes interpolates (by omega))
    (fun statement later shorter' => carried.parseFurther_idle consumes statement (by omega))
    fun statement later shorter' busy => ?_)
  cases later with
  | nil => exact absurd (List.forall_mem_nil _) busy
  | cons second later =>
      have shortest : later.length < bound := by
        simp only [List.length_cons] at shorter shorter'
        omega
      exact .unless_cons (.expect_cons (by decide) (.map (carried.statements shortest)))

/-- The levels above carry over. -/
theorem next : (below.next interpolate).Carried sequel (bound + 1) (below'.next interpolate') where
  pattern := carried.parsePattern consumes
  patternTail := carried.parsePatternTail consumes
  parameters := carried.parseParameters consumes
  statements := carried.parseStatements consumes interpolates
  statement := carried.parseStatement consumes interpolates
  conditional statement _ _ _ fewer := carried.parseConditional consumes fewer statement
  expression := carried.parseExpression consumes interpolates
  dotChain := carried.parseDotChain consumes interpolates
  dotTail := carried.parseDotTail consumes
  pipeTail := carried.parsePipeTail consumes
  application := carried.parseApplication consumes interpolates
  arguments := carried.parseArguments consumes interpolates
  juxtaposed := carried.parseJuxtaposed consumes interpolates
  commaArguments := carried.parseCommaArguments consumes
  binary := carried.parseBinary consumes interpolates
  binaryTail := carried.parseBinaryTail consumes
  unary := carried.parseUnary consumes interpolates
  postfixTail := carried.parsePostfixTail consumes
  tupleTail := carried.parseTupleTail consumes
  listElements := carried.parseListElements consumes interpolates

end Level.Carried

theorem Level.carried_zero (sequel : Sequel) (below below' : Level) :
    below.Carried sequel 0 below' := by
  constructor
  case conditional => exact fun _ _ _ _ _ short => absurd short (Nat.not_lt_zero _)
  case pattern | patternTail | parameters | statements | statement | commaArguments | tupleTail |
      listElements => exact fun _ short => absurd short (Nat.not_lt_zero _)
  case expression | dotChain | application | arguments | juxtaposed | unary =>
      exact fun _ _ _ _ short => absurd short (Nat.not_lt_zero _)
  case dotTail | pipeTail | binary | postfixTail =>
      exact fun _ _ _ _ _ short => absurd short (Nat.not_lt_zero _)
  case binaryTail => exact fun _ _ _ _ _ _ short => absurd short (Nat.not_lt_zero _)

theorem Level.carried_ofNat (sequel : Sequel)
    {interpolate interpolate' : List Token → Except Defect Node}
    (interpolates : ∀ inner node, interpolate inner = .ok node → interpolate' inner = .ok node)
    {bound count count' : Nat} (enough : bound ≤ count) (enough' : bound ≤ count') :
    (Level.ofNat interpolate count).Carried sequel bound (Level.ofNat interpolate' count') := by
  -- One step from level to level for each token; how many more levels there are does not matter.
  induction bound generalizing count count' with
  | zero => exact Level.carried_zero ..
  | succ bound ih =>
      obtain ⟨count, rfl⟩ := Nat.exists_eq_add_one_of_ne_zero (by omega : count ≠ 0)
      obtain ⟨count', rfl⟩ := Nat.exists_eq_add_one_of_ne_zero (by omega : count' ≠ 0)
      exact (ih (by omega) (by omega)).next (Level.consumes_ofNat interpolate count) interpolates

end Offside.Tree
