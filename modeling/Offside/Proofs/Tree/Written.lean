import Offside.Proofs.Layout.Line
import Offside.Proofs.Tree.ReadingStatements

/-!
# Tokens of written trees

A written tree stands on a single line, an expression does not look like a binding, and in the
tokens of a part interpolations nest no deeper than in the tokens of the whole.
-/

namespace Offside

open Rendering
open Token (Kind)

/-! ## No line breaks -/

namespace Node

variable (trailing : Bool)

theorem plain_bracketed {opening closing : Kind} (plainOpening : Layout.isPlain opening)
    (plainClosing : Layout.isPlain closing) (location : Location) {tokens : List Token}
    (plain : Layout.Plain tokens) : Layout.Plain (bracketed opening closing location tokens) := by
  simp [bracketed, plainOpening, plainClosing, plain]

theorem plain_enclosed (node : Node) {tokens : List Token} (plain : Layout.Plain tokens) :
    Layout.Plain (node.enclosed tokens) := by
  unfold enclosed
  split
  · exact plain
  · exact plain_bracketed rfl rfl _ plain

theorem plain_commaTail (location : Location) {items : List (List Token)}
    (plain : ∀ tokens ∈ items, Layout.Plain tokens) : Layout.Plain (commaTail location items) := by
  induction items with
  | nil => simp
  | cons tokens items ih =>
      rw [List.forall_mem_cons] at plain
      simp [plain.1, ih plain.2, Layout.isPlain]

theorem plain_separated (location : Location) {items : List (List Token)}
    (plain : ∀ tokens ∈ items, Layout.Plain tokens) : Layout.Plain (separated location items) := by
  cases items with
  | nil => exact Layout.plain_nil
  | cons tokens items =>
      rw [List.forall_mem_cons] at plain
      exact (Layout.plain_append _ _).mpr ⟨plain.1, plain_commaTail location plain.2⟩

theorem plain_tupleElements (location : Location) {items : List (List Token)}
    (plain : ∀ tokens ∈ items, Layout.Plain tokens) :
    Layout.Plain (tupleElements location items) := by
  cases items with
  | nil => exact Layout.plain_nil
  | cons tokens items =>
      rw [List.forall_mem_cons] at plain
      refine (Layout.plain_append _ _).mpr ⟨plain.1, ?_⟩
      cases items with
      | nil => simp [tupleTail, Layout.isPlain]
      | cons second others => exact plain_commaTail location plain.2

theorem plain_block (location : Location) {items : List (List Token)}
    (plain : ∀ tokens ∈ items, Layout.Plain tokens) :
    Layout.Plain (Rendering.block trailing location items) := by
  have inner : Layout.Plain (Rendering.statements trailing location items) := by
    induction items with
    | nil => exact Layout.plain_nil
    | cons tokens items ih =>
        rw [List.forall_mem_cons] at plain
        rw [Rendering.statements, Layout.plain_append]
        refine ⟨plain.1, ?_⟩
        split
        · exact Layout.plain_nil
        · exact (Layout.plain_cons _ _).mpr ⟨rfl, ih plain.2⟩
  simp [Rendering.block, inner, Layout.isPlain]

theorem plain_pattern (pattern : Pattern) : Layout.Plain pattern.tokens := by
  induction pattern using Pattern.induction with
  | name bound location => simp [Pattern.tokens, Layout.isPlain]
  | tuple elements location ih =>
      rw [Pattern.tokens, Pattern.tokenLists_eq_map]
      exact plain_bracketed rfl rfl _ (plain_tupleElements location (by simpa using ih))

theorem plain_blockTokens {block : Block Node}
    (plain : ∀ node ∈ block.statements, Layout.Plain (node.tokens trailing)) :
    Layout.Plain (blockTokens trailing block) := by
  cases block
  rw [blockTokens, statementLists_eq_map]
  exact plain_block trailing _ (by simpa using plain)

theorem plain_asBranch (node : Node) {tokens : List Token} (plain : Layout.Plain tokens) :
    Layout.Plain (node.asBranch tokens) := by
  unfold asBranch
  split
  · exact plain_enclosed node plain
  · exact plain

theorem plain_asArguments (location : Location) {items : List (List Token)}
    (plain : ∀ tokens ∈ items, Layout.Plain tokens) :
    Layout.Plain (asArguments location items) := by
  cases items with
  | nil => simp [asArguments, Layout.isPlain]
  | cons tokens items => exact (Layout.plain_flatten _).mpr plain

/-- A written tree has no line breaks and no semicolons. -/
theorem plain_tokens (node : Node) : Layout.Plain (node.tokens trailing) := by
  have operands {nodes : List Node} (plain : ∀ node ∈ nodes, Layout.Plain (node.tokens trailing)) :
      ∀ tokens ∈ operands trailing nodes, Layout.Plain tokens := by
    simpa [operand] using fun node found => plain_enclosed node (plain node found)
  induction node using Node.induction with
  | identifier | integer | float | template => simp [tokens, Layout.isPlain]
  | boolean value => cases value <;> simp [tokens, Layout.isPlain]
  | unit location => exact plain_bracketed rfl rfl _ Layout.plain_nil
  | list elements location ih =>
      exact plain_bracketed rfl rfl _ (plain_separated location (operands ih))
  | tuple elements location ih =>
      exact plain_bracketed rfl rfl _ (plain_tupleElements location (operands ih))
  | range low high location low_ih high_ih =>
      simp [tokens, plain_enclosed, low_ih, high_ih, Layout.isPlain]
  | binary operator left right location left_ih right_ih =>
      have plain : Layout.isPlain operator.kind := by cases operator <;> rfl
      simp [tokens, plain_enclosed, left_ih, right_ih, plain]
  | unary operator operand location ih =>
      have plain : Layout.isPlain operator.kind := by cases operator <;> rfl
      simp [tokens, plain_enclosed, ih, plain]
  | call callee arguments location callee_ih ih =>
      rw [tokens, Layout.plain_append]
      exact ⟨plain_enclosed callee callee_ih, plain_asArguments location (operands ih)⟩
  | conditional condition thenBranch elseBranch location condition_ih then_ih else_ih =>
      simp [tokens, plain_enclosed, plain_asBranch, condition_ih, then_ih, else_ih, Layout.isPlain]
  | lambda parameters body location ih =>
      simp [tokens, plain_pattern, plain_blockTokens trailing ih, Layout.isPlain]
  | binding pattern value declares location ih =>
      have plain : Layout.isPlain (bindingKind declares) := by cases declares <;> rfl
      simp [tokens, plain_pattern, plain_enclosed, ih, plain]
  | update name operator value location ih =>
      cases operator <;> simp [tokens, plain_enclosed, ih, UpdateOperator.kind, Layout.isPlain]
  | forLoop pattern iterable body location iterable_ih ih =>
      simp [tokens, plain_pattern, plain_enclosed, iterable_ih, plain_blockTokens trailing ih,
        Layout.isPlain]
  | whileLoop condition body location condition_ih ih =>
      simp [tokens, plain_enclosed, condition_ih, plain_blockTokens trailing ih, Layout.isPlain]
  | block inner ih => exact plain_blockTokens trailing ih

end Node

/-! ## Expressions are no bindings -/

namespace Tree

theorem bindsNext_enclosed (node : Node) {tokens : List Token}
    (quiet : bindsNext tokens = false) : bindsNext (node.enclosed tokens) = false := by
  unfold Node.enclosed bracketed
  split
  · exact quiet
  · rw [bindsNext_cons_inside rfl]
    exact bindsNext_append _ _ quiet rfl

theorem bindsNext_commaTail (location : Location) {items : List (List Token)}
    (quiet : ∀ tokens ∈ items, bindsNext tokens = false) :
    bindsNext (commaTail location items) = false := by
  induction items with
  | nil => rfl
  | cons tokens items ih =>
      rw [List.forall_mem_cons] at quiet
      rw [commaTail_cons, bindsNext_cons_inside rfl]
      exact bindsNext_append _ _ quiet.1 (ih quiet.2)

theorem bindsNext_tupleElements (location : Location) {items : List (List Token)}
    (quiet : ∀ tokens ∈ items, bindsNext tokens = false) :
    bindsNext (tupleElements location items) = false := by
  match items with
  | [] => rfl
  | [only] => exact bindsNext_append _ _ (quiet only List.mem_cons_self) rfl
  | first :: second :: others =>
      rw [List.forall_mem_cons] at quiet
      exact bindsNext_append _ _ quiet.1 (bindsNext_commaTail location quiet.2)

theorem bindsNext_asArguments (location : Location) {items : List (List Token)}
    (quiet : ∀ tokens ∈ items, bindsNext tokens = false) :
    bindsNext (Node.asArguments location items) = false := by
  have flatten {items : List (List Token)} (quiet : ∀ tokens ∈ items, bindsNext tokens = false) :
      bindsNext items.flatten = false := by
    induction items with
    | nil => rfl
    | cons tokens items ih =>
        rw [List.forall_mem_cons] at quiet
        exact bindsNext_append _ _ quiet.1 (ih quiet.2)
  cases items with
  | nil => rfl
  | cons tokens items => exact flatten quiet

/-- An expression does not look like a binding: before the first token that can make one, there is
another that cannot be part of a pattern. -/
theorem bindsNext_tokens (trailing : Bool) (node : Node) (fits : node.fits .operand) :
    bindsNext (node.tokens trailing) = false := by
  have operands {nodes : List Node}
      (quiet : ∀ node ∈ nodes, node.fits .operand → bindsNext (node.tokens trailing) = false)
      (fits : nodes.all (Node.fits · .operand)) :
      ∀ tokens ∈ Node.operands trailing nodes, bindsNext tokens = false := by
    rw [Node.operands_eq_map, List.forall_mem_map]
    intro node found
    exact bindsNext_enclosed node (quiet node found (List.all_eq_true.mp fits node found))
  induction node using Node.induction with
  | identifier | integer | float | template | conditional | lambda | list | unit => rfl
  | boolean value => cases value <;> rfl
  | unary operator => cases operator <;> rfl
  | tuple elements location ih =>
      rw [Node.fits, Node.fitAll_eq_all, Bool.and_eq_true] at fits
      rw [Node.tokens, bracketed, bindsNext_cons_inside rfl]
      exact bindsNext_append _ _ (bindsNext_tupleElements location (operands ih fits.2)) rfl
  | range low high location low_ih high_ih =>
      rw [Node.fits, Bool.and_eq_true] at fits
      exact bindsNext_append _ _ (bindsNext_enclosed low (low_ih fits.1)) rfl
  | binary operator left right location left_ih right_ih =>
      rw [Node.fits, Bool.and_eq_true] at fits
      refine bindsNext_append _ _ (bindsNext_enclosed left (left_ih fits.1)) ?_
      cases operator <;> rfl
  | call callee arguments location callee_ih ih =>
      rw [Node.fits, Node.fitAll_eq_all, Bool.and_eq_true] at fits
      exact bindsNext_append _ _ (bindsNext_enclosed callee (callee_ih fits.1))
        (bindsNext_asArguments location (operands ih fits.2))
  | binding | update | forLoop | whileLoop | block =>
      simp [Node.fits, Position.allowsBinding, Position.allowsBlock] at fits

end Tree

/-! ## Nesting of interpolations -/

/-- Token lists in which interpolations nest at most so deep. -/
def Token.NestWithin (depth : Nat) (tokens : List Token) : Prop :=
  ∀ token ∈ tokens, token.depth ≤ depth

@[simp]
theorem Token.nestWithin_cons (depth : Nat) (token : Token) (rest : List Token) :
    Token.NestWithin depth (token :: rest) ↔ token.depth ≤ depth ∧ Token.NestWithin depth rest :=
  List.forall_mem_cons

@[simp]
theorem Token.nestWithin_append (depth : Nat) (before after : List Token) :
    Token.NestWithin depth (before ++ after) ↔
      Token.NestWithin depth before ∧ Token.NestWithin depth after :=
  List.forall_mem_append

theorem Token.depthOfTokens_le {depth : Nat} {tokens : List Token} :
    Token.depthOfTokens tokens ≤ depth ↔ Token.NestWithin depth tokens := by
  induction tokens with
  | nil => simp [Token.depthOfTokens, Token.NestWithin]
  | cons token rest ih =>
      rw [Token.depthOfTokens, Nat.max_le, ih, Token.nestWithin_cons]

theorem Token.NestWithin.part {depth : Nat} {tokens part : List Token}
    (nests : Token.NestWithin depth tokens) (subset : part ⊆ tokens) :
    Token.NestWithin depth part :=
  fun token found => nests token (subset found)

namespace Node

theorem subset_enclosed (node : Node) (tokens : List Token) : tokens ⊆ node.enclosed tokens := by
  unfold enclosed bracketed
  split <;> simp

theorem subset_asBranch (node : Node) (tokens : List Token) : tokens ⊆ node.asBranch tokens := by
  unfold asBranch
  split
  · exact subset_enclosed node tokens
  · simp

theorem subset_bracketed (opening closing : Kind) (location : Location) (tokens : List Token) :
    tokens ⊆ bracketed opening closing location tokens := by
  simp [bracketed]

theorem subset_commaTail (location : Location) {items : List (List Token)} {item : List Token}
    (found : item ∈ items) : item ⊆ commaTail location items := by
  intro token inItem
  exact List.mem_flatMap.mpr ⟨item, found, List.mem_cons_of_mem _ inItem⟩

theorem subset_separated (location : Location) {items : List (List Token)} {item : List Token}
    (found : item ∈ items) : item ⊆ separated location items := by
  cases found with
  | head rest => exact List.subset_append_left _ _
  | tail first found =>
      exact List.subset_append_of_subset_right _ (subset_commaTail location found)

theorem subset_tupleElements (location : Location) {items : List (List Token)} {item : List Token}
    (found : item ∈ items) : item ⊆ tupleElements location items := by
  match items, found with
  | _ :: _, .head _ => exact List.subset_append_left _ _
  | _ :: _ :: _, .tail _ found =>
      exact List.subset_append_of_subset_right _ (subset_commaTail location found)

theorem subset_asArguments (location : Location) {items : List (List Token)} {item : List Token}
    (found : item ∈ items) : item ⊆ asArguments location items := by
  cases items with
  | nil => simp at found
  | cons first rest => exact fun token inItem => List.mem_flatten_of_mem found inItem

theorem subset_statements (trailing : Bool) (location : Location) {items : List (List Token)}
    {item : List Token} (found : item ∈ items) :
    item ⊆ Rendering.statements trailing location items := by
  induction found with
  | head rest => exact List.subset_append_left _ _
  | @tail first rest found ih =>
      have more : rest.isEmpty = false := by simpa using List.ne_nil_of_mem found
      rw [Rendering.statements, more]
      exact List.subset_append_of_subset_right _ (List.subset_cons_of_subset _ ih)

variable {trailing : Bool}

theorem subset_blockTokens {block : Block Node} {node : Node} (found : node ∈ block.statements) :
    node.tokens trailing ⊆ blockTokens trailing block := by
  obtain ⟨statements, location⟩ := block
  rw [blockTokens, statementLists_eq_map]
  have inside : node.tokens trailing ⊆
      Rendering.statements trailing location (statements.map (tokens trailing)) :=
    subset_statements trailing location (List.mem_map_of_mem found)
  exact List.subset_cons_of_subset _ (List.subset_append_of_subset_left _ inside)

end Node

end Offside
