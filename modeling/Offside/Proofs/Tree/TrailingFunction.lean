import Offside.Proofs.Tree.CallStyles

/-!
# Functions as last arguments

A function can be the last argument of a call without parentheses around it. Its body then reaches
to the end of the statement, so that parentheses around the body and around the function make no
difference.
-/

namespace Offside.Tree

open Token (Kind)

/-- A parameter of a function. -/
structure Parameter where
  tokens : List Token
  pattern : Pattern
  reads : ReadsAlone (fun _ => parsePattern) tokens pattern

namespace Parameter

/-- Parameters one after the other. -/
def sequence (parameters : List Parameter) : List Token := (parameters.map tokens).flatten

theorem forall₂_of_nestWithin {depth : Nat} {parameters : List Parameter}
    (nests : Token.NestWithin depth (sequence parameters)) :
    List.Forall₂ (ReadsPattern (parseInterpolation depth)) (parameters.map tokens)
      (parameters.map pattern) := by
  rw [List.forall₂_map_left_iff, List.forall₂_map_right_iff, List.forall₂_same]
  exact fun parameter found => parameter.reads.pattern
    (nests.part (List.sublist_flatten_of_mem (List.mem_map_of_mem found)).subset)

end Parameter

/-- The tokens of a function with an expression as its body. -/
def functionTokens (start arrow : Location) (parameters : List Parameter) (body : List Token) :
    List Token :=
  .fixed .fnWord start :: (Parameter.sequence parameters ++ .fixed .thinArrow arrow :: body)

/-- Tokens in parentheses. -/
def parenthesized (opening closing : Location) (tokens : List Token) : List Token :=
  .fixed .leftParen opening :: (tokens ++ [.fixed .rightParen closing])

/-- The call of a function by its name with another function as the last argument. -/
def functionCall (name : String) (place start : Location) (arguments : List Argument)
    (parameters : List Parameter) (result : Node) : Node :=
  .call (.identifier name place)
    (arguments.map Argument.node ++
      [.lambda (parameters.map Parameter.pattern) ⟨[result], result.location⟩ start]) place

section Reading

variable {interpolate : List Token → Except Defect Node}

/-- A function that reaches to the end of the arguments is the last one. -/
theorem reads_juxtaposed_function {commas : Bool} {follow : Kind → Prop} {function : List Token}
    {node : Node} (starts : StartsWith (· = .fnWord) function)
    (reads : Reads interpolate (parsePrimary · interpolate commas) follow function node)
    (ends : ∀ kind, follow kind → endsArguments kind) :
    Reads interpolate (parseJuxtaposed · interpolate commas) follow function [node] := by
  have binary := reads_binary_of_unary 0
    (reads_unary_of_primary (starts.mono fun kind isFn => by simp [isFn]) reads)
  intro count rest bound follows
  have start := starts.head rest
  have spec := endsArguments_spec (ends _ follows)
  have first := binary count rest bound ⟨⟨follows, spec.1.1⟩, spec.1.2⟩
  obtain ⟨token, tail, same, -⟩ := starts
  have others := (reads_juxtaposed (.nil : List.Forall₂ (ReadsOperand interpolate) [] [])
    commas).below (·.juxtaposed commas) (fun _ => rfl) count rest
    (by simp [same] at bound ⊢; omega) (ends _ follows)
  simp only [List.flatten_nil, List.nil_append] at others
  simp [parseJuxtaposed, start, startsArgument, first, others]

variable {arguments : List Argument} {parameters : List Parameter} {body : List Token}
  {result : Node} (name : String) (place start arrow : Location)
  (read : Argument.Read interpolate arguments)
  (patterns : List.Forall₂ (ReadsPattern interpolate) (parameters.map Parameter.tokens)
    (parameters.map Parameter.pattern))

include read patterns

/-- A call with a function at its end. The body of the function reaches to the end of file. -/
theorem reads_trailing (starts : StartsWith (· ≠ .blockStart) body)
    (reads : Reads interpolate (parseExpression · interpolate true) (· = .endOfFile) body
      result) :
    Reads interpolate (parseExpression · interpolate true) (· = .endOfFile)
      ([⟨.identifier, .text name, place⟩] ++
        (Argument.sequence arguments ++ functionTokens start arrow parameters body))
      (functionCall name place start arguments parameters result) := by
  have separate : StartsWith (fun kind => kind ≠ .bang ∧ precedence kind ≤ 0)
      (functionTokens start arrow parameters body) := ⟨_, _, rfl, by simp [precedence]⟩
  have function := reads_juxtaposed_function ⟨_, _, rfl, rfl⟩
    (reads_lambda_expression patterns start arrow starts reads) fun _ isEnd => isEnd ▸ rfl
  have juxtaposed := reads_juxtaposed_append read.forall₂ (fun rest _ => separate.head rest)
    function
  have called := (ReadsOperand.identifier name place).called
    (Argument.startsWith_sequence (fun _ => separate_of_startsOperand) arguments separate)
    (by simp) (reads_arguments_of_juxtaposed juxtaposed)
  have application := called.mono fun kind (isEnd : kind = .endOfFile) =>
    ⟨isEnd, by simp [isEnd]⟩
  exact reads_expression_of_closed application fun _ isEnd => isEnd ▸ rfl

/-- A call with a function at its end, with parentheses around the function and its body. -/
theorem reads_parenthesized (outer outerEnd inner innerEnd : Location)
    (starts : StartsWith (· ≠ .rightParen) body)
    (reads : Reads interpolate (parseExpression · interpolate false) (· = .rightParen) body
      result) :
    Reads interpolate (parseExpression · interpolate true) (· = .endOfFile)
      ([⟨.identifier, .text name, place⟩] ++ (Argument.sequence arguments ++
        parenthesized outer outerEnd
          (functionTokens start arrow parameters (parenthesized inner innerEnd body))))
      (functionCall name place start arguments parameters result) := by
  -- Inside of parentheses no comma goes on with arguments, neither in the body nor around it.
  have inside := (ReadsOperand.parenthesized inner innerEnd starts reads).expression false
  have function := reads_expression_of_primary ⟨_, _, rfl, by simp⟩
    (reads_lambda_expression patterns start arrow ⟨_, _, rfl, by simp⟩ inside)
  have last := ReadsOperand.parenthesized outer outerEnd ⟨_, _, rfl, by simp⟩
    (function.mono fun _ isClosing => isClosing ▸ rfl)
  have called := (ReadsOperand.identifier name place).call
    (List.rel_append read.forall₂ (.cons last .nil)) (by simp) true
  have application := called.mono fun kind (isEnd : kind = .endOfFile) =>
    ⟨isEnd ▸ rfl, by simp [isEnd]⟩
  rw [List.flatten_append, List.flatten_singleton] at application
  exact reads_expression_of_closed application fun _ isEnd => isEnd ▸ rfl

end Reading

section Statements

variable (name : String) (arguments : List Argument) (parameters : List Parameter)
  {body : List Token} {result : Node}
  (reads : ReadsAlone (fun interpolate => (parseExpression · interpolate true)) body result)
  (place start arrow last : Location)

include reads

theorem startsWith_ne {kind : Kind} (other : startsStatement kind = false) :
    StartsWith (· ≠ kind) body :=
  reads.startsStatement.mono fun _ starts => by
    rintro rfl
    simp [other] at starts

/-- The body of a function as the last argument reaches to the end of the statement. -/
theorem parse_functionTokens :
    ∃ read, parse ([⟨.identifier, .text name, place⟩] ++ (Argument.sequence arguments ++
        functionTokens start arrow parameters body) ++ [.inserted .endOfFile last]) = .ok read ∧
      read.statements.map Node.unplaced =
        [(functionCall name place start arguments parameters result).unplaced] := by
  have quiet : StartsWith (fun kind => binds kind = false)
      (functionTokens start arrow parameters body) := ⟨_, _, rfl, rfl⟩
  have starts := Argument.startsWith_sequence (fun _ => not_binds_of_startsOperand) arguments quiet
  refine parse_of_name last starts fun depth nests => ⟨_, ?_, rfl⟩
  simp only [functionTokens, Token.nestWithin_append, Token.nestWithin_cons] at nests
  obtain ⟨-, nestsArguments, -, nestsParameters, -, nestsBody⟩ := nests
  exact reads_trailing name place start arrow (Argument.read_of_sequence nestsArguments)
    (Parameter.forall₂_of_nestWithin nestsParameters) (startsWith_ne reads rfl)
    ((reads.expression nestsBody true (.inl rfl)).mono fun _ isEnd => isEnd ▸ ⟨rfl, by decide⟩)

/-- A function as the last argument is one in parentheses. -/
theorem parse_parenthesized (free : commaFree 0 body)
    (outer outerEnd inner innerEnd : Location) :
    ∃ read, parse ([⟨.identifier, .text name, place⟩] ++ (Argument.sequence arguments ++
        parenthesized outer outerEnd (functionTokens start arrow parameters
          (parenthesized inner innerEnd body))) ++ [.inserted .endOfFile last]) = .ok read ∧
      read.statements.map Node.unplaced =
        [(functionCall name place start arguments parameters result).unplaced] := by
  have quiet : StartsWith (fun kind => binds kind = false)
      (parenthesized outer outerEnd (functionTokens start arrow parameters
        (parenthesized inner innerEnd body))) := ⟨_, _, rfl, rfl⟩
  have starts := Argument.startsWith_sequence (fun _ => not_binds_of_startsOperand) arguments quiet
  refine parse_of_name last starts fun depth nests => ⟨_, ?_, rfl⟩
  simp only [functionTokens, parenthesized, Token.nestWithin_append, Token.nestWithin_cons] at nests
  obtain ⟨-, nestsArguments, -, ⟨-, nestsParameters, -, -, nestsBody, -⟩, -⟩ := nests
  exact reads_parenthesized name place start arrow (Argument.read_of_sequence nestsArguments)
    (Parameter.forall₂_of_nestWithin nestsParameters) outer outerEnd inner innerEnd
    (startsWith_ne reads rfl)
    ((reads.expression nestsBody false (.inr free)).mono fun _ isClosing =>
      isClosing ▸ ⟨rfl, by decide⟩)

end Statements

/-- A function as the last argument of a call needs no parentheses. Its body reaches to the end of
the statement: whatever expression it is, if no comma stands outside of its brackets, the program is
the same as with parentheses around the body and around the function. -/
theorem parse_trailing (name : String) (arguments : List Argument) (parameters : List Parameter)
    {body : List Token} {result : Node}
    (reads : ReadsAlone (fun interpolate => (parseExpression · interpolate true)) body result)
    (free : commaFree 0 body)
    (place start arrow outer outerEnd inner innerEnd last : Location) :
    ∃ bare bracketed,
      parse ([⟨.identifier, .text name, place⟩] ++ (Argument.sequence arguments ++
        functionTokens start arrow parameters body) ++ [.inserted .endOfFile last]) = .ok bare ∧
      parse ([⟨.identifier, .text name, place⟩] ++ (Argument.sequence arguments ++
        parenthesized outer outerEnd (functionTokens start arrow parameters
          (parenthesized inner innerEnd body))) ++ [.inserted .endOfFile last]) = .ok bracketed ∧
      bare.unplaced = bracketed.unplaced ∧
      bare.statements.map Node.unplaced =
        [(functionCall name place start arguments parameters result).unplaced] := by
  obtain ⟨bare, parsesBare, tree⟩ :=
    parse_functionTokens name arguments parameters reads place start arrow last
  obtain ⟨bracketed, parsesBracketed, tree'⟩ :=
    parse_parenthesized name arguments parameters reads place start arrow last free outer outerEnd
      inner innerEnd
  refine ⟨bare, bracketed, parsesBare, parsesBracketed, ?_, tree⟩
  exact Program.unplaced_congr (tree.trans tree'.symm)

/-- The parameter `(x, y)`. -/
def sampleParameter : Parameter where
  tokens := parenthesized (.start none) (.start none)
    [⟨.identifier, .text "x", .start none⟩, .fixed .comma (.start none),
      ⟨.identifier, .text "y", .start none⟩]
  pattern := .tuple [.name "x" (.start none), .name "y" (.start none)] (.start none)
  reads := ⟨.start none, rfl⟩

/-- The expression `fn z -> z + x |> g (y, 1)`. -/
def sampleBody : List Token :=
  functionTokens (.start none) (.start none)
    [⟨[⟨.identifier, .text "z", .start none⟩], .name "z" (.start none), .start none, rfl⟩]
    ([⟨.identifier, .text "z", .start none⟩, .fixed .plus (.start none),
      ⟨.identifier, .text "x", .start none⟩, .fixed .pipe (.start none),
      ⟨.identifier, .text "g", .start none⟩] ++
      parenthesized (.start none) (.start none)
        [⟨.identifier, .text "y", .start none⟩, .fixed .comma (.start none),
          ⟨.integer, .integer 1, .start none⟩])

/-- The function that `sampleBody` makes. -/
def sampleResult : Node :=
  .lambda [.name "z" (.start none)]
    ⟨[.call (.identifier "g" (.start none))
      [.binary .add (.identifier "z" (.start none)) (.identifier "x" (.start none)) (.start none),
        .tuple [.identifier "y" (.start none), .integer 1 (.start none)] (.start none)]
      (.start none)], .start none⟩ (.start none)

theorem reads_sampleBody :
    ReadsAlone (fun interpolate => (parseExpression · interpolate true)) sampleBody sampleResult :=
  ⟨.start none, rfl⟩

theorem parse_trailing_sampleBody :
    ReadsAlone (fun interpolate => (parseExpression · interpolate true)) sampleBody sampleResult ∧
    commaFree 0 sampleBody ∧
    ∃ bare bracketed,
      parse ([⟨.identifier, .text "f", .start none⟩] ++ (Argument.sequence [sampleArgument] ++
        functionTokens (.start none) (.start none) [sampleParameter] sampleBody) ++
        [.inserted .endOfFile (.start none)]) = .ok bare ∧
      parse ([⟨.identifier, .text "f", .start none⟩] ++ (Argument.sequence [sampleArgument] ++
        parenthesized (.start none) (.start none) (functionTokens (.start none) (.start none)
          [sampleParameter] (parenthesized (.start none) (.start none) sampleBody))) ++
        [.inserted .endOfFile (.start none)]) = .ok bracketed ∧
      bare.unplaced = bracketed.unplaced ∧
      bare.statements.map Node.unplaced =
        [(functionCall "f" (.start none) (.start none) [sampleArgument] [sampleParameter]
          sampleResult).unplaced] :=
  ⟨reads_sampleBody, rfl, parse_trailing "f" [sampleArgument] [sampleParameter] reads_sampleBody rfl
    (.start none) (.start none) (.start none) (.start none) (.start none) (.start none)
    (.start none) (.start none)⟩

end Offside.Tree
