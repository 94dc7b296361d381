import Offside.Proofs.Tree.Extension
import Offside.Proofs.Tree.Following
import Offside.Proofs.Tree.Written

/-!
# Tokens that a rule reads by themselves

A rule reads tokens alone if it consumes all of them up to the end of file. Patterns and operands
that are read alone are read in every place, and an expression that is read alone is read in
parentheses and at the end of a statement.
-/

namespace Offside.Tree

open Token (Kind)

/-- A rule of the grammar consumes all of the tokens up to the end of file. -/
def ReadsAlone {α : Type} (rule : (List Token → Except Defect Node) → Level → Parser α)
    (tokens : List Token) (result : α) : Prop :=
  ∃ last : Location,
    runRule (parseInterpolation (Token.depthOfTokens tokens))
      (rule (parseInterpolation (Token.depthOfTokens tokens)))
      (tokens ++ [.inserted .endOfFile last]) = .ok (result, [.inserted .endOfFile last])

/-! ## Reading alone and among other tokens -/

section Alone

variable {tokens : List Token} {depth : Nat}

/-- If all tokens are consumed up to the end of file, then so they are with other tokens in its
place. -/
theorem Sequel.Carries.complete {sequel : Sequel} {α : Type} {same needs : Prop}
    {parser parser' : Parser α} {result : α}
    (carries : sequel.Carries same needs parser parser' tokens)
    (found : parser (sequel.alone tokens) = .ok (result, sequel.ending))
    (needed : needs) (agree : same ∨ commaFree 0 tokens) :
    parser' (sequel.joined tokens) = .ok (result, sequel.others) := by
  obtain ⟨used, later, split, left, run⟩ := carries _ found
  obtain rfl : later = [] := by
    simpa [Sequel.alone, eq_comm] using left
  obtain rfl : tokens = used := by simpa using split
  exact run (fun _ => needed) agree

/-- A rule that carries over reads among other tokens what it reads alone. -/
theorem ReadsAlone.reads {α : Type} {rule : (List Token → Except Defect Node) → Level → Parser α}
    {result : α} (alone : ReadsAlone rule tokens result) (nests : Token.NestWithin depth tokens)
    {same : Prop} (agree : same ∨ commaFree 0 tokens) {rule' : Level → Parser α}
    {follow : Kind → Prop}
    (carries : ∀ (sequel : Sequel) (interpolate : List Token → Except Defect Node) (count : Nat)
      (below below' : Level), below.Consumes interpolate count →
      (∀ inner node, interpolate inner = .ok node → parseInterpolation depth inner = .ok node) →
      below.Carried sequel tokens.length below' →
      sequel.Carries same (follow (headToken sequel.others).kind) (rule interpolate below)
        (rule' below') tokens) :
    Reads (parseInterpolation depth) rule' follow tokens result := by
  obtain ⟨last, found⟩ := alone
  intro count rest bound follows
  have deeper (inner : List Token) (node : Node)
      (read : parseInterpolation (Token.depthOfTokens tokens) inner = .ok node) :
      parseInterpolation depth inner = .ok node :=
    parseInterpolation_mono (Token.depthOfTokens_le.mpr nests) read
  rw [List.length_append] at bound
  let sequel : Sequel := ⟨[.inserted .endOfFile last], rest, rfl, rfl⟩
  exact (carries sequel _ _ _ _ (Level.consumes_ofNat _ _) deeper
    (Level.carried_ofNat sequel deeper (by simp; omega) (by omega))).complete found follows agree

/-- The first token before the end of file is one of the tokens if it is not the end of file. -/
theorem startsWith_of_head {first : Kind → Prop} (last : Location) (inner : ¬first .endOfFile)
    (holds : first (headToken (tokens ++ [.inserted .endOfFile last])).kind) :
    StartsWith first tokens := by
  cases tokens with
  | nil => exact absurd holds inner
  | cons token rest => exact ⟨token, rest, rfl, holds⟩

theorem ReadsAlone.pattern {pattern : Pattern}
    (alone : ReadsAlone (fun _ => parsePattern) tokens pattern)
    (nests : Token.NestWithin depth tokens) :
    ReadsPattern (parseInterpolation depth) tokens pattern where
  starts := by
    obtain ⟨last, found⟩ := alone
    have spec := (Level.consumes_ofNat _ _).spec_parsePattern _ _ found
    exact startsWith_of_head last (by simp) (spec.imp And.left And.left)
  reads := alone.reads nests (.inl trivial) fun _ _ _ _ _ consumes _ carried =>
    carried.parsePattern consumes (Nat.lt_succ_self _)

/-- An expression that is read alone is read before the end of file and in parentheses. If no comma
stands outside of its brackets, it does not matter whether commas go on with arguments. -/
theorem ReadsAlone.expression {node : Node}
    (alone : ReadsAlone (fun interpolate => (parseExpression · interpolate true)) tokens node)
    (nests : Token.NestWithin depth tokens) (commas : Bool)
    (agree : commas = true ∨ commaFree 0 tokens) :
    Reads (parseInterpolation depth) (parseExpression · (parseInterpolation depth) commas)
      (fun kind => stops kind ∧ kind ≠ .statementEnd) tokens node :=
  alone.reads nests (agree.imp_left Eq.symm) fun _ _ _ _ _ consumes interpolates carried =>
    (carried.parseExpression consumes interpolates (fun _ => rfl) (Nat.lt_succ_self _)).mono id
      fun follows => ⟨follows.1, fun ahead => follows.2 ahead.1⟩

theorem ReadsAlone.startsStatement {node : Node}
    (alone : ReadsAlone (fun interpolate => (parseExpression · interpolate true)) tokens node) :
    StartsWith (fun kind => startsStatement kind) tokens := by
  obtain ⟨last, found⟩ := alone
  refine startsWith_of_head last (by simp [Tree.startsStatement, startsArgument]) ?_
  by_contra other
  obtain ⟨defect, fails⟩ := parseExpression_fails _ _ true (Bool.not_eq_true _ ▸ other)
  cases fails.symm.trans found

theorem ReadsAlone.operand {node : Node}
    (alone : ReadsAlone (fun interpolate => (parsePrimary · interpolate true)) tokens node)
    (starts : StartsWith (fun kind => startsOperand kind = true) tokens)
    (nests : Token.NestWithin depth tokens) :
    ReadsOperand (parseInterpolation depth) tokens node where
  starts := starts
  primary commas := by
    obtain ⟨token, rest, rfl, start⟩ := starts
    exact alone.reads nests (.inl trivial) fun _ _ _ _ _ consumes interpolates carried =>
      carried.operand consumes interpolates start (Nat.lt_succ_self _) true commas

end Alone

/-- An operand starts no binding if no binding operator follows it. -/
theorem ReadsOperand.startsBinding {interpolate : List Token → Except Defect Node}
    {tokens : List Token} {node : Node} (operand : ReadsOperand interpolate tokens node)
    {rest : List Token} (quiet : binds (headToken rest).kind = false) :
    startsBinding (tokens ++ rest) = false := by
  obtain ⟨token, tail, rfl, start⟩ := operand.starts
  set below := Level.ofNat interpolate (token :: tail ++ rest).length
  have read : parsePrimary below interpolate true (token :: tail ++ rest) = .ok (node, rest) :=
    operand.primary true _ rest (Nat.le_refl _) trivial
  have consumes := Level.consumes_ofNat interpolate (token :: tail ++ rest).length
  rw [binds, Bool.or_eq_false_iff] at quiet
  rw [List.cons_append] at read ⊢
  cases kind : token.kind with
  | identifier =>
      obtain ⟨-, rfl⟩ : _ ∧ tail = [] := by simpa [parsePrimary, kind] using read
      cases rest with
      | nil => simp [Tree.startsBinding, kind, secondKind, isBindingOperator, updateOperator?]
      | cons second rest => simpa [Tree.startsBinding, kind, secondKind] using quiet
  | leftParen =>
      have grouped : parseGrouped below token.location (tail ++ rest) = .ok (node, rest) := by
        simpa [parsePrimary, kind] using read
      obtain ⟨later, inside, closes, left⟩ := consumes.spec_parseGrouped _ _ _ grouped
      -- A binding would have its operator right after the parenthesis that ends the operand.
      by_contra binding
      have binding : bindsTuple 1 (tail ++ rest) := by
        simpa [Tree.startsBinding, kind, bindsTuple] using binding
      have after : bindsTuple (0 + 1) later := inside.bindsTuple binding
      rw [bindsTuple_last closes, ← left, quiet.1] at after
      cases after
  | _ => simp [Tree.startsBinding, kind]

/-- A statement that starts with an operand is a program of this one statement. -/
theorem parse_of_operand {tokens rest : List Token} (operand : Node) {tree : Node} (last : Location)
    (quiet : binds (headToken (rest ++ [.inserted .endOfFile last])).kind = false)
    (reads : ∀ depth, Token.NestWithin depth (tokens ++ rest) →
      ReadsOperand (parseInterpolation depth) tokens operand ∧
      ∃ node, Reads (parseInterpolation depth)
        (parseExpression · (parseInterpolation depth) true) (· = .endOfFile) (tokens ++ rest)
        node ∧ node.unplaced = tree.unplaced) :
    ∃ read, parse (tokens ++ rest ++ [.inserted .endOfFile last]) = .ok read ∧
      read.statements.map Node.unplaced = [tree.unplaced] := by
  set depth := Token.depthOfTokens (tokens ++ rest ++ [.inserted .endOfFile last]) with isDepth
  have nests : Token.NestWithin depth (tokens ++ rest ++ [.inserted .endOfFile last]) :=
    Token.depthOfTokens_le.mp (Nat.le_of_eq isDepth.symm)
  rw [Token.nestWithin_append] at nests
  obtain ⟨readsOperand, node, readsNode, same⟩ := reads depth nests.1
  have starts : StartsWith (fun kind => endsStatement kind = false ∧ kind ≠ .forWord ∧
      kind ≠ .whileWord ∧ kind ≠ .ifWord) tokens :=
    readsOperand.starts.mono fun kind start => by
      cases kind <;> simp_all [startsOperand, endsStatement]
  have notBinding : startsBinding (tokens ++ rest ++ [.inserted .endOfFile last]) = false := by
    rw [List.append_assoc]
    exact readsOperand.startsBinding quiet
  refine ⟨_, parse_of_expression rfl (starts.append rest) notBinding readsNode, ?_⟩
  rw [List.map_singleton, same]

/-- A statement that starts with a name is a program of this one statement. -/
theorem parse_of_name {name : String} {place : Location} {rest : List Token} {tree : Node}
    (last : Location) (starts : StartsWith (fun kind => binds kind = false) rest)
    (reads : ∀ depth, Token.NestWithin depth ([⟨.identifier, .text name, place⟩] ++ rest) →
      ∃ node, Reads (parseInterpolation depth)
        (parseExpression · (parseInterpolation depth) true) (· = .endOfFile)
        ([⟨.identifier, .text name, place⟩] ++ rest) node ∧ node.unplaced = tree.unplaced) :
    ∃ read, parse ([⟨.identifier, .text name, place⟩] ++ rest ++ [.inserted .endOfFile last]) =
        .ok read ∧
      read.statements.map Node.unplaced = [tree.unplaced] :=
  parse_of_operand (.identifier name place) last (starts.head _) fun depth nests =>
    ⟨.identifier name place, reads depth nests⟩

end Offside.Tree
