import Offside.Proofs.Tree.Concatenation
import Offside.Proofs.Tree.ReadingStatements

/-!
# Reading data

Data are literals, also negative numbers, and the lists and tuples of data with commas between them.
Their tokens make an expression in front of everything that ends one, and a program if they stand
alone: however many parentheses and commas there are, no binding operator follows them.
-/

namespace Offside.Tree

open Token (Kind)

/-- The tokens of data. -/
def isDatum : Kind → Bool
  | .integer | .string | .trueWord | .falseWord | .minus | .comma | .leftParen | .rightParen
  | .leftBracket | .rightBracket => true
  | _ => false

/-- The tokens that data start with. -/
def startsDatum : Kind → Bool
  | .integer | .string | .trueWord | .falseWord | .minus | .leftParen | .leftBracket => true
  | _ => false

theorem startsDatum_spec {kind : Kind} (starts : startsDatum kind) :
    isDatum kind ∧ kind ≠ .rightParen ∧ kind ≠ .rightBracket ∧ kind ≠ .endOfFile := by
  cases kind <;> simp_all [startsDatum, isDatum]

/-- Tokens of data that make an expression. -/
structure ReadsDatum (tokens : List Token) (node : Node) : Prop where
  starts : StartsWith (fun kind => startsDatum kind) tokens
  data : ∀ token ∈ tokens, isDatum token.kind
  expression : ∀ interpolate commas,
    Reads interpolate (parseExpression · interpolate commas) (fun kind => closes kind) tokens node

/-- A token that is a datum of its own. -/
theorem ReadsDatum.single {token : Token} {node : Node} (starts : startsDatum token.kind)
    (operand : ∀ interpolate, ReadsOperand interpolate [token] node) : ReadsDatum [token] node where
  starts := ⟨token, [], rfl, starts⟩
  data := List.forall_mem_singleton.mpr (startsDatum_spec starts).1
  expression interpolate := (operand interpolate).expression

theorem ReadsDatum.boolean (value : Bool) (location : Location) :
    ReadsDatum [⟨if value then .trueWord else .falseWord, .boolean value, location⟩]
      (.boolean value location) :=
  .single (by cases value <;> rfl) fun _ => .boolean value location

theorem ReadsDatum.integer (value : Int) (location : Location) :
    ReadsDatum [⟨.integer, .integer value, location⟩] (.integer value location) :=
  .single rfl fun _ => .integer value location

/-- A string literal without interpolations. -/
theorem ReadsDatum.text {segments : List Segment} {parts : List (Part Node)}
    (reads : ∀ interpolate, parseParts interpolate segments = .ok parts) (location : Location) :
    ReadsDatum [⟨.string, .segments segments, location⟩] (.template parts location) :=
  .single rfl fun interpolate => .template location (reads interpolate)

theorem ReadsDatum.negative (value : Int) (location location' : Location) :
    ReadsDatum [⟨.minus, .text "-", location⟩, ⟨.integer, .integer value, location'⟩]
      (.unary .negate (.integer value location') location) where
  starts := ⟨_, _, rfl, rfl⟩
  data := by simp [isDatum]
  expression interpolate commas := by
    have operand : ReadsOperand interpolate _ _ := .integer value location'
    have unary := reads_prefixed .negate location (operand.unary commas)
    exact reads_expression_of_unary unary fun _ closing => (closes_spec closing).1

/-! ## Brackets -/

/-- Tokens of one or more data with a comma between each two of them. -/
inductive ReadsData : List Token → List Node → Prop where
  | single {tokens : List Token} {node : Node} : ReadsDatum tokens node → ReadsData tokens [node]
  | cons {tokens later : List Token} {comma : Token} {node : Node} {nodes : List Node} :
      ReadsDatum tokens node → comma.kind = .comma → ReadsData later nodes →
      ReadsData (tokens ++ comma :: later) (node :: nodes)

namespace ReadsData

variable {tokens : List Token} {nodes : List Node}

theorem data (reads : ReadsData tokens nodes) : ∀ token ∈ tokens, isDatum token.kind := by
  induction reads with
  | single datum => exact datum.data
  | cons datum isComma _ ih =>
      exact List.forall_mem_append.mpr
        ⟨datum.data, List.forall_mem_cons.mpr ⟨by rw [isComma]; rfl, ih⟩⟩

/-- The elements of a list. -/
theorem elements (reads : ReadsData tokens nodes) (interpolate : List Token → Except Defect Node) :
    Reads interpolate (parseListElements · interpolate) (· = .rightBracket) tokens nodes := by
  induction reads with
  | @single tokens node datum =>
      intro count rest bound follows
      have start := startsDatum_spec (datum.starts.head rest)
      have first := datum.expression interpolate false count rest bound (by rw [follows]; rfl)
      simp [parseListElements, start, first, follows]
  | @cons tokens later comma node nodes datum isComma reads ih =>
      intro count rest bound follows
      rw [List.append_assoc, List.cons_append] at bound ⊢
      have start := startsDatum_spec (datum.starts.head (comma :: (later ++ rest)))
      have first := datum.expression interpolate false count (comma :: (later ++ rest)) bound
        (by rw [headToken_cons, isComma]; rfl)
      have others := ih.below (·.listElements) (fun _ => rfl) count rest
        (by simp at bound ⊢; omega) follows
      simp [parseListElements, start, first, isComma, others]

/-- The elements of a tuple after the first one. -/
theorem tail (reads : ReadsData tokens nodes) {comma : Token} (isComma : comma.kind = .comma)
    (interpolate : List Token → Except Defect Node) :
    Reads interpolate parseTupleTail (· = .rightParen) (comma :: tokens) nodes := by
  induction reads generalizing comma with
  | @single tokens node datum =>
      intro count rest bound follows
      rw [List.cons_append] at bound ⊢
      have start := startsDatum_spec (datum.starts.head rest)
      have first := (datum.expression interpolate false).below (·.expression false)
        (fun _ => rfl) count rest (by simp at bound ⊢; omega) (by rw [follows]; rfl)
      have none : Reads interpolate parseTupleTail (· = .rightParen) [] [] := by
        intro count rest _ follows
        simp [parseTupleTail, follows]
      have done := none.below (·.tupleTail) (fun _ => rfl) count rest
        (by simp at bound ⊢; omega) follows
      rw [List.nil_append] at done
      simp [parseTupleTail, isComma, start, first, done]
  | @cons tokens later comma' node nodes datum isComma' reads ih =>
      intro count rest bound follows
      rw [List.cons_append, List.append_assoc, List.cons_append] at bound ⊢
      have start := startsDatum_spec (datum.starts.head (comma' :: (later ++ rest)))
      have first := (datum.expression interpolate false).below (·.expression false)
        (fun _ => rfl) count (comma' :: (later ++ rest)) (by simp at bound ⊢; omega)
        (by rw [headToken_cons, isComma']; rfl)
      have others := (ih isComma').below (·.tupleTail) (fun _ => rfl) count rest
        (by simp at bound ⊢; omega) follows
      rw [List.cons_append] at others
      simp [parseTupleTail, isComma, start, first, others]

end ReadsData

namespace ReadsDatum

variable {opening closing : Token} {tokens : List Token} {nodes : List Node}

/-- What stands between brackets is a datum if it is read as a primary expression. -/
theorem bracketed {node : Node} (opens : startsDatum opening.kind)
    (notMinus : opening.kind ≠ .minus) (closed : isDatum closing.kind)
    (data : ∀ token ∈ tokens, isDatum token.kind)
    (primary : ∀ interpolate commas, Reads interpolate (parsePrimary · interpolate commas)
      (fun _ => True) (opening :: (tokens ++ [closing])) node) :
    ReadsDatum (opening :: (tokens ++ [closing])) node where
  starts := ⟨opening, _, rfl, opens⟩
  data := List.forall_mem_cons.mpr ⟨(startsDatum_spec opens).1,
    List.forall_mem_append.mpr ⟨data, List.forall_mem_singleton.mpr closed⟩⟩
  expression interpolate commas := by
    have notNot : opening.kind ≠ .not := by
      intro isNot
      rw [isNot] at opens
      cases opens
    exact reads_expression_of_primary ⟨opening, _, rfl, notMinus, notNot⟩
      ((primary interpolate commas).mono fun _ _ => trivial)

theorem closing_of_kind {delimiter : Delimiter} (isClosing : closing.kind = delimiter.closingKind)
    (opened : Location) (rest : List Token) :
    expectClosing delimiter opened (closing :: rest) = .ok ((), rest) := by
  have notEnd : closing.kind ≠ .endOfFile := by
    rw [isClosing]
    cases delimiter <;> decide
  rw [run_expectClosing, if_pos (by exact isClosing), next_cons notEnd]

theorem unit (opens : opening.kind = .leftParen) (closed : closing.kind = .rightParen) :
    ReadsDatum [opening, closing] (.unit opening.location) := by
  have primary (interpolate : List Token → Except Defect Node) (commas : Bool) :
      Reads interpolate (parsePrimary · interpolate commas) (fun _ => True) [opening, closing]
        (.unit opening.location) := by
    intro count rest _ _
    simp [parsePrimary, opens, parseGrouped, closed]
  exact @bracketed opening closing [] _ (by rw [opens]; rfl) (by simp [opens]) (by rw [closed]; rfl)
    (List.forall_mem_nil _) primary

theorem list (opens : opening.kind = .leftBracket) (closed : closing.kind = .rightBracket)
    (data : ∀ token ∈ tokens, isDatum token.kind)
    (elements : ∀ interpolate, Reads interpolate (parseListElements · interpolate)
      (· = .rightBracket) tokens nodes) :
    ReadsDatum (opening :: (tokens ++ [closing])) (.list nodes opening.location) := by
  refine bracketed (by rw [opens]; rfl) (by simp [opens]) (by rw [closed]; rfl) data ?_
  intro interpolate commas count rest bound _
  rw [List.cons_append, List.append_assoc, List.singleton_append] at bound ⊢
  have inner := (elements interpolate).below (·.listElements) (fun _ => rfl) count
    (closing :: rest) (by simp at bound ⊢; omega) closed
  have ended := closing_of_kind (show _ = Delimiter.bracket.closingKind from closed)
    opening.location rest
  simp [parsePrimary, opens, inner, ended]

theorem emptyList (opens : opening.kind = .leftBracket) (closed : closing.kind = .rightBracket) :
    ReadsDatum [opening, closing] (.list [] opening.location) := by
  refine @list opening closing [] [] opens closed (List.forall_mem_nil _) ?_
  intro interpolate count rest _ follows
  simp [parseListElements, follows]

theorem tuple {first : List Token} {comma : Token} {node : Node} (opens : opening.kind = .leftParen)
    (closed : closing.kind = .rightParen) (datum : ReadsDatum first node)
    (isComma : comma.kind = .comma) (reads : ReadsData tokens nodes) :
    ReadsDatum (opening :: ((first ++ comma :: tokens) ++ [closing]))
      (.tuple (node :: nodes) opening.location) := by
  have data : ∀ token ∈ first ++ comma :: tokens, isDatum token.kind :=
    (ReadsData.cons datum isComma reads).data
  refine bracketed (by rw [opens]; rfl) (by simp [opens]) (by rw [closed]; rfl) data ?_
  intro interpolate commas count rest bound _
  simp only [List.cons_append, List.append_assoc, List.nil_append] at bound ⊢
  have start := startsDatum_spec (datum.starts.head (comma :: (tokens ++ closing :: rest)))
  have readsFirst := (datum.expression interpolate false).below (·.expression false) (fun _ => rfl)
    count (comma :: (tokens ++ closing :: rest)) (by simp at bound ⊢; omega)
    (by rw [headToken_cons, isComma]; rfl)
  have readsOthers := (reads.tail isComma interpolate).below (·.tupleTail) (fun _ => rfl) count
    (closing :: rest) (by simp at bound ⊢; omega) closed
  have ended := closing_of_kind (show _ = Delimiter.paren.closingKind from closed)
    opening.location rest
  rw [List.cons_append] at readsOthers
  simp [parsePrimary, opens, parseGrouped, start, readsFirst, isComma, readsOthers, ended]

end ReadsDatum

/-! ## Programs -/

theorem isDatum_spec {kind : Kind} (datum : isDatum kind) :
    endsStatement kind = false ∧ binds kind = false ∧ kind ≠ .forWord ∧ kind ≠ .whileWord ∧
      kind ≠ .ifWord := by
  cases kind <;> simp_all [isDatum, endsStatement, binds, isBindingOperator, updateOperator?]

/-- A datum on its own is a program. -/
theorem ReadsDatum.parse {tokens : List Token} {node : Node} (datum : ReadsDatum tokens node)
    {last : Token} (isEnd : last.kind = .endOfFile) :
    ∃ location, parse (tokens ++ [last]) = .ok ⟨[node], location⟩ := by
  have quiet : bindsNext tokens = false := by
    rw [bindsNext, ← Bool.not_eq_true]
    intro binding
    obtain ⟨token, found, binding⟩ := (Option.any_eq_true _ _).mp binding
    have member := List.mem_of_find?_eq_some found
    simp [(isDatum_spec (datum.data token member)).2.1] at binding
  have starts := datum.starts.mono fun kind (start : startsDatum kind) =>
    have spec := isDatum_spec (startsDatum_spec start).1
    show endsStatement kind = false ∧ kind ≠ .forWord ∧ kind ≠ .whileWord ∧ kind ≠ .ifWord from
      ⟨spec.1, spec.2.2⟩
  have statement : ReadsStatement (parseInterpolation (Token.depthOfTokens (tokens ++ [last])))
      tokens node :=
    .ofExpression starts quiet ((datum.expression _ true).mono fun _ follows => follows.1)
  have alone : Rendering.statements false last.location [tokens] = tokens := by
    simp [Rendering.statements]
  have statements := reads_statements false last.location .endOfFile rfl (by decide)
    (.cons statement .nil)
  rw [alone] at statements
  have read := statements.below (·.statements .endOfFile) (fun _ => rfl)
    ((tokens ++ [last]).length + 1) [last] (Nat.lt_succ_self _) isEnd
  exact ⟨_, parse_of_statements read isEnd⟩

end Offside.Tree
