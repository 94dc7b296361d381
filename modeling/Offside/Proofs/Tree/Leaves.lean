import Offside.Proofs.Token.Leaves
import Offside.Proofs.Tree.Stopping
import Mathlib.Algebra.Order.Group.Multiset
import Mathlib.Tactic.Abel

/-!
# What the parser builds, and from what

The parser builds trees of the grammar. Every name and every literal of a program comes from one
token, and every token of a name or a literal ends up in the program. The rules of the grammar are
followed level by level: a rule returns trees that stand where the grammar has them, and what it was
given and the leaves ahead of it are the leaves of what it returns and those still ahead.
-/

namespace Offside

open Node (Built)
open Token (Kind Regular Raw Ended Genuine holdsLeaf)

/-! ## Leaves of trees -/

/-- The text of a part that is no expression. -/
def Part.text? {α : Type} : Part α → Option String
  | .text content => some content
  | .expression _ => none

namespace Pattern

/-- The leaves of names with their places. -/
def leavesOfNames (names : List (String × Location)) : Multiset Leaf :=
  (names.map fun bound => Leaf.name bound.1 bound.2 : List Leaf)

/-- The leaves of a pattern. -/
def leaves (pattern : Pattern) : Multiset Leaf := leavesOfNames pattern.names

/-- The leaves of several patterns. -/
def leavesOfAll (patterns : List Pattern) : Multiset Leaf := leavesOfNames (namesOfAll patterns)

@[simp]
theorem leaves_name (name : String) (location : Location) :
    (Pattern.name name location).leaves = {.name name location} := by
  simp [leaves, leavesOfNames, names]

@[simp]
theorem leaves_tuple (elements : List Pattern) (location : Location) :
    (Pattern.tuple elements location).leaves = leavesOfAll elements := by
  simp [leaves, leavesOfAll, names]

@[simp]
theorem leavesOfAll_nil : leavesOfAll [] = 0 := rfl

@[simp]
theorem leavesOfAll_cons (pattern : Pattern) (rest : List Pattern) :
    leavesOfAll (pattern :: rest) = pattern.leaves + leavesOfAll rest := by
  simp [leaves, leavesOfAll, leavesOfNames, namesOfAll]

end Pattern

namespace Node

mutual

/-- The leaves of a tree: the names that it mentions or binds, and its literals. -/
def leaves : Node → Multiset Leaf
  | .identifier name location => {.name name location}
  | .integer value location => {.integer value location}
  | .float value location => {.float value location}
  | .boolean value location => {.boolean value location}
  | .unit _ => 0
  | .template parts location => {.string (parts.map Part.text?) location} + leavesOfParts parts
  | .list elements _ | .tuple elements _ => leavesOfAll elements
  | .range low high _ => leaves low + leaves high
  | .binary _ left right _ => leaves left + leaves right
  | .unary _ operand _ => leaves operand
  | .call callee arguments _ => leaves callee + leavesOfAll arguments
  | .conditional condition thenBranch elseBranch _ =>
    leaves condition + leaves thenBranch + leaves elseBranch
  | .lambda parameters ⟨statements, _⟩ _ => Pattern.leavesOfAll parameters + leavesOfAll statements
  | .binding pattern value _ _ => pattern.leaves + leaves value
  | .update name _ value location => {.name name location} + leaves value
  | .forLoop pattern iterable ⟨statements, _⟩ _ =>
    pattern.leaves + leaves iterable + leavesOfAll statements
  | .whileLoop condition ⟨statements, _⟩ _ => leaves condition + leavesOfAll statements
  | .block ⟨statements, _⟩ => leavesOfAll statements

/-- The leaves of several trees. -/
def leavesOfAll : List Node → Multiset Leaf
  | [] => 0
  | node :: rest => leaves node + leavesOfAll rest

/-- The leaves of the expressions among the parts of a string template. -/
def leavesOfParts : List (Part Node) → Multiset Leaf
  | [] => 0
  | .text _ :: rest => leavesOfParts rest
  | .expression node :: rest => leaves node + leavesOfParts rest

end

theorem leavesOfAll_append (first second : List Node) :
    leavesOfAll (first ++ second) = leavesOfAll first + leavesOfAll second := by
  induction first with
  | nil => simp [leavesOfAll]
  | cons node rest ih => rw [List.cons_append, leavesOfAll, leavesOfAll, ih, add_assoc]

end Node

/-- The leaves of a program. -/
def Block.leaves (block : Block Node) : Multiset Leaf := Node.leavesOfAll block.statements

namespace Tree

theorem leaves_binaryNode (kind : Kind) (left right : Node) (location : Location) :
    (binaryNode kind left right location).leaves = left.leaves + right.leaves := by
  cases kind <;> simp [binaryNode, Node.leaves]

theorem leaves_pipeNode (left right : Node) (location : Location) :
    (pipeNode left right location).leaves = left.leaves + right.leaves := by
  unfold pipeNode
  split
  · simp only [Node.leaves, Node.leavesOfAll]
    abel
  · simp only [Node.leaves, Node.leavesOfAll]
    abel

/-! ## Leaves ahead -/

/-- The leaves of a token and of those within it. -/
def here (token : Token) : Multiset Leaf := (Token.leaves [token] : List Leaf)

/-- The leaves of the tokens up to the end of file. -/
def ahead (tokens : List Token) : Multiset Leaf :=
  (Token.leaves (tokens.takeWhile (·.kind != .endOfFile)) : List Leaf)

theorem here_of_blank {token : Token} (regular : Regular [token])
    (blank : holdsLeaf token.kind = false) : here token = 0 := by
  rw [here, Token.leaves_of_blank (regular.scanned token (by simp)) blank]
  rfl

/-- The leaf of a name or of a literal other than a string. -/
theorem here_of_leaf {token : Token} {leaf : Leaf} (regular : Regular [token])
    (other : token.kind ≠ .string) (found : token.leaf? = some leaf) : here token = {leaf} := by
  rw [here, Token.leaves_of_ne_string (regular.scanned token (by simp)) other, found]
  rfl

theorem here_of_name {token : Token} (regular : Regular [token])
    (isName : token.kind = .identifier) : here token = {.name (wordOf token) token.location} := by
  obtain ⟨text, payload⟩ := (Token.regular_singleton.mp regular).1.name isName
  refine here_of_leaf regular (by simp [isName]) ?_
  simp [Token.leaf?, isName, payload, wordOf, Payload.shown]

theorem ahead_of_endOfFile {tokens : List Token} (isEnd : (headToken tokens).kind = .endOfFile) :
    ahead tokens = 0 := by
  cases tokens with
  | nil => rfl
  | cons token rest =>
      rw [ahead, List.takeWhile_cons_of_neg (by simpa using isEnd)]
      rfl

section Regular

variable {tokens : List Token} (regular : Regular tokens)

include regular

theorem regular_head : Regular [headToken tokens] := by
  cases tokens with
  | nil =>
      have counted := Location.Counted.start none
      exact Token.regular_of_blank (Token.scanned_of_interpolations_eq_nil counted rfl) rfl
  | cons token rest => exact Token.regular_iff.mp regular token List.mem_cons_self

theorem regular_next : Regular (next tokens) := by
  unfold next
  split
  · exact regular
  · exact Token.regular_iff.mpr fun token member =>
      Token.regular_iff.mp regular token (List.mem_of_mem_tail member)

/-- The leaves ahead are those of the first token and those after it. -/
theorem ahead_eq_add : ahead tokens = here (headToken tokens) + ahead (next tokens) := by
  by_cases isEnd : (headToken tokens).kind = .endOfFile
  · rw [next, if_pos isEnd, here_of_blank (regular_head regular) (by rw [isEnd]; rfl), zero_add]
  · cases tokens with
    | nil => exact absurd rfl isEnd
    | cons token rest =>
        rw [headToken_cons] at isEnd
        rw [next_cons isEnd, ahead, List.takeWhile_cons_of_pos (by simpa using isEnd),
          Token.leaves_cons, ← Multiset.coe_add]
        rfl

/-- The ends of statements hold no leaves. -/
theorem ahead_skip : Regular (skip tokens) ∧ ahead tokens = ahead (skip tokens) := by
  induction tokens with
  | nil => exact ⟨regular, rfl⟩
  | cons token rest ih =>
      by_cases separates : token.kind = .statementEnd
      · have step := ahead_eq_add regular
        have later := regular_next regular
        rw [next_cons (by simp [separates])] at step later
        rw [here_of_blank (regular_head regular) (by rw [headToken_cons, separates]; rfl), zero_add]
          at step
        rw [step, skip, List.dropWhile_cons_of_pos (by simpa using separates)]
        exact ih later
      · rw [skip, List.dropWhile_cons_of_neg (by simpa using separates)]
        exact ⟨regular, rfl⟩

end Regular

/-! ## Parsers that keep leaves -/

/-- A result has a property, and what is carried and the leaves ahead are its leaves and those ahead
after it. -/
def Conserved {α : Type} (holds : α → Prop) (leaves : α → Multiset Leaf) (carried : Multiset Leaf)
    (tokens : List Token) (result : α × List Token) : Prop :=
  holds result.1 ∧ (Regular tokens →
    Regular result.2 ∧ carried + ahead tokens = leaves result.1 + ahead result.2)

/-- Whenever a parser succeeds, it returns something with a property, and it keeps what it is given
and the leaves ahead of it. -/
def Keeps {α : Type} (holds : α → Prop) (leaves : α → Multiset Leaf) (carried : Multiset Leaf)
    (parser : Parser α) (tokens : List Token) : Prop :=
  Returns (parser tokens) (Conserved holds leaves carried tokens)

namespace Keeps

variable {α β : Type} {holds : α → Prop} {holds' : β → Prop}
variable {leaves : α → Multiset Leaf} {leaves' : β → Multiset Leaf}
variable {carried : Multiset Leaf} {tokens : List Token} {kind : Kind}

theorem pure {result : α} (here : holds result) (same : carried = leaves result) :
    Keeps holds leaves carried (Pure.pure result) tokens :=
  .ok ⟨here, fun regular => ⟨regular, by rw [same]⟩⟩

theorem fail (expectation : Expectation) :
    Keeps holds leaves carried (Tree.fail expectation) tokens :=
  .error _

theorem mono {parser : Parser α} {weaker : α → Prop}
    (keeps : Keeps holds leaves carried parser tokens)
    (implies : ∀ result, holds result → weaker result) :
    Keeps weaker leaves carried parser tokens :=
  fun result run => (keeps result run).imp_left (implies result.1)

theorem of_eq {parser : Parser α} {carried' : Multiset Leaf}
    (keeps : Keeps holds leaves carried' parser tokens) (same : carried = carried') :
    Keeps holds leaves carried parser tokens := by
  rwa [same]

/-- What follows may depend on what else holds of the first result and of the tokens left. -/
theorem bind_of {parser : Parser α} {goOn : α → Parser β} {more : α × List Token → Prop}
    (first : Keeps holds leaves carried parser tokens) (found : Returns (parser tokens) more)
    (goesOn : ∀ result, holds result.1 → more result →
      Keeps holds' leaves' (leaves result.1) (goOn result.1) result.2) :
    Keeps holds' leaves' carried (parser >>= goOn) tokens := by
  have both : Returns (parser tokens) fun result =>
      Conserved holds leaves carried tokens result ∧ more result :=
    fun result run => ⟨first result run, found result run⟩
  refine both.bind fun result ⟨⟨here, conserved⟩, also⟩ last run => ?_
  obtain ⟨there, conserved'⟩ := goesOn result here also last run
  refine ⟨there, fun regular => ?_⟩
  obtain ⟨regular, same⟩ := conserved regular
  obtain ⟨regular, same'⟩ := conserved' regular
  exact ⟨regular, same.trans same'⟩

/-- What is carried goes through a first parser. -/
theorem chain {parser : Parser α} {goOn : α → Parser β}
    (first : Keeps holds leaves carried parser tokens)
    (goesOn : ∀ result later, holds result →
      Keeps holds' leaves' (leaves result) (goOn result) later) :
    Keeps holds' leaves' carried (parser >>= goOn) tokens :=
  bind_of first (fun _ _ => trivial) fun result here (_ : True) => goesOn result.1 result.2 here

/-- More may be carried past a parser. -/
theorem frame {parser : Parser α} (keeps : Keeps holds leaves 0 parser tokens) :
    Keeps holds (carried + leaves ·) carried parser tokens := by
  refine fun result run => (keeps result run).imp_right fun conserved regular => ?_
  obtain ⟨regular, same⟩ := conserved regular
  exact ⟨regular, by rw [add_assoc, ← same, zero_add]⟩

theorem bind {parser : Parser α} {goOn : α → Parser β}
    (first : Keeps holds leaves 0 parser tokens)
    (goesOn : ∀ result later, holds result →
      Keeps holds' leaves' (carried + leaves result) (goOn result) later) :
    Keeps holds' leaves' carried (parser >>= goOn) tokens :=
  chain first.frame goesOn

theorem ite {condition : Prop} [Decidable condition] {first second : Parser α}
    (whenTrue : condition → Keeps holds leaves carried first tokens)
    (whenFalse : ¬condition → Keeps holds leaves carried second tokens) :
    Keeps holds leaves carried (if condition then first else second) tokens := by
  split
  · exact whenTrue ‹_›
  · exact whenFalse ‹_›

/-- What is carried past the first token, of which `own` tells the leaves. -/
theorem after {parser : Parser α} {carried' : Multiset Leaf}
    (own : Regular [headToken tokens] → carried + here (headToken tokens) = carried')
    (keeps : Keeps holds leaves carried' parser (next tokens)) :
    Returns (parser (next tokens)) (Conserved holds leaves carried tokens) := by
  refine fun result run => (keeps result run).imp_right fun conserved regular => ?_
  obtain ⟨regular', same⟩ := conserved (regular_next regular)
  refine ⟨regular', ?_⟩
  rw [ahead_eq_add regular, ← add_assoc, own (regular_head regular), same]

theorem own_of_blank (isKind : (headToken tokens).kind = kind) (blank : holdsLeaf kind = false)
    (regular : Regular [headToken tokens]) : carried + here (headToken tokens) = carried := by
  rw [here_of_blank regular (by rwa [isKind]), add_zero]

theorem own_of_name (isName : (headToken tokens).kind = .identifier)
    (regular : Regular [headToken tokens]) : carried + here (headToken tokens) =
      carried + {.name (wordOf (headToken tokens)) (headToken tokens).location} := by
  rw [here_of_name regular isName]

theorem advance_of {goOn : Token → Parser α} {carried' : Multiset Leaf}
    (own : Regular [headToken tokens] → carried + here (headToken tokens) = carried')
    (goesOn : Keeps holds leaves carried' (goOn (headToken tokens)) (next tokens)) :
    Keeps holds leaves carried (Tree.advance >>= goOn) tokens :=
  after own goesOn

theorem advance {goOn : Token → Parser α} (blank : holdsLeaf (headToken tokens).kind = false)
    (goesOn : Keeps holds leaves carried (goOn (headToken tokens)) (next tokens)) :
    Keeps holds leaves carried (Tree.advance >>= goOn) tokens :=
  advance_of (own_of_blank rfl blank) goesOn

theorem accept {first second : Parser α} (blank : holdsLeaf kind = false)
    (whenTrue : Keeps holds leaves carried first (next tokens))
    (whenFalse : Keeps holds leaves carried second tokens) :
    Keeps holds leaves carried (Tree.accept kind >>= fun found => if found then first else second)
      tokens :=
  Returns.accept (fun isKind => after (own_of_blank isKind blank) whenTrue) fun _ => whenFalse

/-- Consume a token of some kind if there is one. -/
theorem skip {goOn : Parser α} (blank : holdsLeaf kind = false)
    (goesOn : ∀ later, Keeps holds leaves carried goOn later) :
    Keeps holds leaves carried (Tree.accept kind >>= fun _ => goOn) tokens := by
  simpa using accept blank (goesOn _) (goesOn tokens)

theorem expect {expectation : Expectation} {goOn : Token → Parser α}
    (blank : holdsLeaf kind = false)
    (goesOn : Keeps holds leaves carried (goOn (headToken tokens)) (next tokens)) :
    Keeps holds leaves carried (Tree.expect kind expectation >>= goOn) tokens :=
  Returns.expect fun isKind => after (own_of_blank isKind blank) goesOn

theorem expectClosing {delimiter : Delimiter} {opened : Location} {goOn : Parser α}
    (goesOn : Keeps holds leaves carried goOn (next tokens)) :
    Keeps holds leaves carried (Tree.expectClosing delimiter opened >>= fun _ => goOn) tokens := by
  refine Returns.expectClosing fun isKind => after (own_of_blank isKind ?_) goesOn
  cases delimiter <;> rfl

theorem acceptElse {first second : Parser α}
    (whenTrue : ∀ later, Keeps holds leaves carried first later)
    (whenFalse : Keeps holds leaves carried second tokens) :
    Keeps holds leaves carried (Tree.acceptElse >>= fun found => if found then first else second)
      tokens := by
  unfold Keeps
  rw [run_bind]
  by_cases isElse : (headToken tokens).kind = .elseWord
  · rw [acceptElse_of_head isElse]
    exact after (own_of_blank isElse rfl) (whenTrue _)
  by_cases elseAhead : ElseAhead tokens
  · rw [acceptElse_of_ahead elseAhead]
    have second : Keeps holds leaves carried (fun later => first (next later)) (next tokens) :=
      after (own_of_blank elseAhead.next rfl) (whenTrue _)
    exact after (own_of_blank elseAhead.1 rfl) second
  · rw [acceptElse_of_not isElse elseAhead]
    exact whenFalse

end Keeps

/-! ## What is built -/

/-- A rule builds a tree that stands at some position. -/
abbrev Builds (position : Position) (parser : Parser Node) (tokens : List Token) : Prop :=
  Keeps (Built true · position) Node.leaves 0 parser tokens

/-- A rule builds several such trees. -/
abbrev BuildsAll (position : Position) (parser : Parser (List Node)) (tokens : List Token) : Prop :=
  Keeps (∀ node ∈ ·, Built true node position) Node.leavesOfAll 0 parser tokens

/-- What a dot call or a pipe may take. -/
structure Chainable (position : Position) (node : Node) : Prop where
  built : Built true node position
  isExpression : node.isStatement = false
  stands : position = .operand ∨ position = .statement

/-- A call that takes what it may take can be taken in turn. -/
theorem Chainable.call {position : Position} {callee left : Node} {arguments : List Node}
    (takes : Chainable position left) (builtCallee : Built true callee .operand)
    (each : ∀ argument ∈ arguments, Built true argument .operand) (location : Location) :
    Chainable position (.call callee (left :: arguments) location) := by
  refine ⟨?_, rfl, takes.stands⟩
  rcases takes.stands with rfl | rfl
  · exact .call _ _ builtCallee (List.forall_mem_cons.mpr ⟨takes.built, each⟩)
  · exact .chain _ rfl builtCallee takes.built takes.isExpression each

theorem Chainable.ofOperand {node : Node} (built : Built true node .operand) :
    Chainable .operand node :=
  ⟨built, built.isStatement_eq_false, .inl rfl⟩

theorem Chainable.pipeNode {position : Position} {left right : Node}
    (takes : Chainable position left) (built : Built true right .operand) (location : Location) :
    Chainable position (Tree.pipeNode left right location) := by
  unfold Tree.pipeNode
  split
  · exact takes.call built.of_call.1 built.of_call.2 _
  · exact takes.call built (by simp) _

theorem built_binaryNode (kind : Kind) {left right : Node} (builtLeft : Built true left .operand)
    (builtRight : Built true right .operand) (location : Location) :
    Built true (binaryNode kind left right location) .operand := by
  unfold binaryNode
  split <;> constructor <;> assumption

/-! ## String templates -/

/-- An interpolated expression is one of the grammar and has the leaves of its tokens. -/
def Interpolates (interpolate : List Token → Except Defect Node) : Prop :=
  ∀ inner, Returns (interpolate inner) fun node => Built true node .operand ∧
    (Raw inner → Regular inner → node.leaves = (Token.leaves inner : List Leaf))

theorem returns_parts {interpolate : List Token → Except Defect Node}
    (interpolates : Interpolates interpolate) (segments : List Segment) :
    Returns (parseParts interpolate segments) fun parts =>
      (∀ node, .expression node ∈ parts → Built true node .operand) ∧
      ((∀ inner text, .expression inner text ∈ segments → Raw inner ∧ Regular inner) →
        parts.map Part.text? = segments.map Segment.text? ∧
          Node.leavesOfParts parts = (Token.leavesOfSegments segments : List Leaf)) := by
  induction segments with
  | nil => exact .ok ⟨by simp, fun _ => ⟨rfl, rfl⟩⟩
  | cons segment rest ih =>
      cases segment with
      | text content =>
          refine ih.bind fun parts ⟨built, kept⟩ => .ok ⟨by simpa using built, fun each => ?_⟩
          obtain ⟨texts, leaves⟩ := kept fun inner text member =>
            each inner text (List.mem_cons_of_mem _ member)
          constructor
          · rw [List.map_cons, texts, List.map_cons]
            rfl
          · rw [Node.leavesOfParts, leaves]
            rfl
      | expression tokens source =>
          refine (interpolates tokens).bind fun node ⟨first, own⟩ =>
            ih.bind fun parts ⟨built, kept⟩ => .ok ⟨by simpa using ⟨first, built⟩, fun each => ?_⟩
          obtain ⟨raw, regular⟩ := each tokens source List.mem_cons_self
          obtain ⟨texts, leaves⟩ := kept fun inner text member =>
            each inner text (List.mem_cons_of_mem _ member)
          constructor
          · rw [List.map_cons, texts, List.map_cons]
            rfl
          · rw [Node.leavesOfParts, leaves, own raw regular, Multiset.coe_add,
              Token.leavesOfSegments_expression]

/-! ## Rules -/

/-- What the rules of a level build, and what they do with leaves. -/
structure Level.Conserves (level : Level) : Prop where
  pattern tokens : Keeps (·.fits) Pattern.leaves 0 level.pattern tokens
  /-- Without a comma, no patterns follow the first one. -/
  patternTail tokens : Keeps (fun tail => tail.1.all Pattern.fits ∧ (tail.2 = false → tail.1 = []))
    (Pattern.leavesOfAll ·.1) 0 level.patternTail tokens
  parameters tokens : Keeps (·.all Pattern.fits) Pattern.leavesOfAll 0 level.parameters tokens
  statements terminator tokens : BuildsAll .statement (level.statements terminator) tokens
  statement tokens : Builds .statement level.statement tokens
  conditional (position : Position) commas {tokens : List Token} :
    (headToken tokens).kind = .ifWord →
    Builds position (level.conditional position.allowsBinding commas) tokens
  expression commas tokens : Builds .operand (level.expression commas) tokens
  dotChain commas tokens : Builds .operand (level.dotChain commas) tokens
  dotTail commas {position : Position} {left : Node} (tokens : List Token) :
    Chainable position left →
    Keeps (Chainable position) Node.leaves left.leaves (level.dotTail commas left) tokens
  pipeTail commas {position : Position} {left : Node} (tokens : List Token) :
    Chainable position left →
    Keeps (Chainable position) Node.leaves left.leaves (level.pipeTail commas left) tokens
  application commas tokens : Builds .operand (level.application commas) tokens
  arguments commas tokens : BuildsAll .operand (level.arguments commas) tokens
  juxtaposed commas tokens : BuildsAll .operand (level.juxtaposed commas) tokens
  commaArguments tokens : BuildsAll .operand level.commaArguments tokens
  binary commas minimum tokens : Builds .operand (level.binary commas minimum) tokens
  binaryTail commas minimum {left : Node} (tokens : List Token) : Built true left .operand →
    Keeps (Built true · .operand) Node.leaves left.leaves (level.binaryTail commas minimum left)
      tokens
  unary commas tokens : Builds .operand (level.unary commas) tokens
  postfixTail commas {callee : Node} (tokens : List Token) : Built true callee .operand →
    Keeps (Built true · .operand) Node.leaves callee.leaves (level.postfixTail commas callee) tokens
  tupleTail tokens : BuildsAll .operand level.tupleTail tokens
  listElements tokens : BuildsAll .operand level.listElements tokens

namespace Level.Conserves

variable {below : Level} (conserves : below.Conserves) (tokens : List Token)

include conserves

/-! ## Patterns -/

theorem parsePatternTail :
    Keeps (fun tail => tail.1.all Pattern.fits ∧ (tail.2 = false → tail.1 = []))
      (Pattern.leavesOfAll ·.1) 0 (Tree.parsePatternTail below) tokens :=
  .accept rfl
    (.ite (fun _ => .pure ⟨rfl, fun _ => rfl⟩ rfl) fun _ =>
      .bind (conserves.pattern _) fun _ _ first => .bind (conserves.patternTail _) fun _ _ rest =>
        .pure ⟨by simp [first, rest.1], by simp⟩ (by simp))
    (.pure ⟨rfl, fun _ => rfl⟩ rfl)

theorem parsePattern : Keeps (·.fits) Pattern.leaves 0 (Tree.parsePattern below) tokens := by
  refine Returns.accept
    (fun isName => Keeps.after (Keeps.own_of_name isName) (.pure rfl (by simp))) fun _ => ?_
  refine Keeps.accept rfl (.bind (conserves.pattern _) fun first _ fits => ?_) (.fail _)
  refine .bind (conserves.patternTail _) fun tail _ ⟨tailFits, single⟩ => ?_
  refine .expectClosing (.pure ?_ ?_)
  · split
    · simpa [Pattern.fits, fits] using tailFits
    · exact fits
  · split
    case isTrue => simp
    case isFalse alone => simp [single (by simpa using alone)]

theorem parseParameters :
    Keeps (·.all Pattern.fits) Pattern.leavesOfAll 0 (Tree.parseParameters below) tokens :=
  .ite (fun _ => .pure rfl rfl) fun _ => .bind (conserves.parsePattern _) fun _ _ first =>
    .bind (conserves.parameters _) fun _ _ rest => .pure (by simp [first, rest]) (by simp)

/-! ## Blocks and clauses -/

theorem parseBlock : Keeps (∀ statement ∈ ·.statements, Built true statement .statement)
    Block.leaves 0 (Tree.parseBlock below) tokens :=
  .expect rfl (.bind (conserves.statements _ _) fun _ _ each =>
    .expect rfl (.pure each (by simp [Block.leaves])))

theorem parseClauseBody : Keeps (∀ statement ∈ ·.statements, Built true statement .statement)
    Block.leaves 0 (Tree.parseClauseBody below) tokens :=
  .ite (fun _ => conserves.parseBlock _) fun _ =>
    .bind (conserves.statement _) fun _ _ built =>
      .pure (by simpa using built) (by simp [Block.leaves, Node.leavesOfAll])

/-! ## Bindings and conditionals -/

variable {interpolate : List Token → Except Defect Node} {count : Nat}
variable {tokens} (consumes : below.Consumes interpolate count)

include consumes

theorem parseBinding {position : Position} (allowed : position.allowsBinding)
    (binds : startsBinding tokens) : Builds position (Tree.parseBinding below) tokens := by
  rcases update_or_pattern tokens with ⟨operator, isName, found, second⟩ | other
  · unfold Builds Keeps
    rw [parseBinding_of_update below isName found]
    refine Keeps.advance_of (Keeps.own_of_name isName) (.advance ?_ ?_)
    · rw [second]
      generalize secondKind tokens = kind at found
      cases kind <;> first | rfl | cases found
    · exact .bind (conserves.expression _ _) fun _ _ value =>
        .pure (.update _ _ _ allowed value) (by simp [Node.leaves])
  · unfold Builds Keeps
    rw [parseBinding_of_pattern below other]
    refine Keeps.bind_of (conserves.parsePattern tokens)
      (consumes.operator_parsePattern binds other) fun result pattern operator => ?_
    refine .advance ?_ (.bind (conserves.expression _ _) fun _ _ value =>
      .pure (.binding _ _ allowed pattern value) (by simp [Node.leaves]))
    generalize (headToken result.2).kind = kind at operator
    cases kind <;> first | rfl | cases operator

theorem parseBranch (position : Position) (commas : Bool) :
    Builds position.inner (Tree.parseBranch below position.allowsBinding commas) tokens := by
  refine .ite (fun _ => ?_) fun _ => .ite (fun isConditional => ?_) fun _ =>
    .ite (fun isBinding => ?_) fun _ => ?_
  · exact .bind (conserves.parseBlock _) fun _ _ each =>
      .pure (.block position.allowsBlock_inner each) (by simp [Node.leaves, Block.leaves])
  · obtain ⟨statement, isIf⟩ := Bool.and_eq_true_iff.mp isConditional
    have conditional := conserves.conditional position.inner commas (by simpa using isIf)
    rwa [position.allowsBinding_inner, statement] at conditional
  · obtain ⟨statement, binds⟩ := Bool.and_eq_true_iff.mp isBinding
    exact conserves.parseBinding consumes (position.allowsBinding_inner.trans statement) binds
  · exact (conserves.application commas tokens).mono fun _ built => built.widen (.inl rfl)

omit consumes in
/-- The clause after a colon. -/
theorem clause (position : Position) (isColon : (headToken tokens).kind = .colon) :
    Builds position.inner (do
      let _ ← Tree.advance
      let block ← Tree.parseClauseBody below
      return Node.block block : Parser Node) tokens :=
  .advance (by rw [isColon]; rfl) (.bind (conserves.parseClauseBody _) fun _ _ each =>
    .pure (.block position.allowsBlock_inner each) (by simp [Node.leaves, Block.leaves]))

theorem parseThen (position : Position) (commas : Bool) :
    Builds position.inner (Tree.parseThen below position.allowsBinding commas) tokens :=
  .ite (fun isColon =>
      conserves.clause position (by simpa using (Bool.and_eq_true_iff.mp isColon).2))
    fun _ => .expect rfl (conserves.parseBranch consumes position commas)

theorem parseElse (position : Position) (commas : Bool) :
    Builds position.inner (Tree.parseElse below position.allowsBinding commas) tokens := by
  refine .ite (fun isIf => ?_) fun _ =>
    .ite (fun isColon =>
        conserves.clause position (by simpa using (Bool.and_eq_true_iff.mp isColon).2))
      fun _ => conserves.parseBranch consumes position commas
  have conditional := conserves.conditional position.inner commas isIf
  rwa [position.allowsBinding_inner] at conditional

theorem parseConditional (position : Position) (commas : Bool)
    (isIf : (headToken tokens).kind = .ifWord) :
    Keeps (fun node => Built true node position ∧ node.isStatement = false) Node.leaves 0
      (Tree.parseConditional below position.allowsBinding commas) tokens := by
  rw [parseConditional_eq]
  refine .advance (by rw [isIf]; rfl) (.bind (conserves.expression _ _) fun _ _ condition =>
    .bind (conserves.parseThen consumes position commas) fun _ _ first =>
      .acceptElse (fun _ => ?_)
        (.pure ⟨.conditional _ _ condition first (.unit _ _), rfl⟩ (by simp [Node.leaves])))
  exact .bind (conserves.parseElse consumes position commas) fun _ _ second =>
    .pure ⟨.conditional _ _ condition first second, rfl⟩ (by simp [Node.leaves])

/-! ## Primary expressions -/

variable (tokens)

omit consumes

theorem parseTupleTail : BuildsAll .operand (Tree.parseTupleTail below) tokens :=
  .accept rfl
    (.ite (fun _ => .pure (by simp) rfl) fun _ =>
      .bind (conserves.expression _ _) fun _ _ element =>
        .bind (conserves.tupleTail _) fun _ _ rest =>
          .pure (List.forall_mem_cons.mpr ⟨element, rest⟩) (by simp [Node.leavesOfAll]))
    (.pure (by simp) rfl)

theorem parseGrouped (opened : Location) :
    Builds .operand (Tree.parseGrouped below opened) tokens := by
  refine .accept rfl (.pure (.unit _ _) (by simp [Node.leaves]))
    (.bind (conserves.expression _ _) fun _ _ first =>
      .ite (fun _ => ?_) fun _ => .expectClosing (.pure first (by simp)))
  exact .bind (conserves.tupleTail _) fun _ _ rest => .expectClosing
    (.pure (.tuple _ _ (by simp) (List.forall_mem_cons.mpr ⟨first, rest⟩))
      (by simp [Node.leaves, Node.leavesOfAll]))

theorem parseLambda (consumes : below.Consumes interpolate count) (commas : Bool)
    (isFn : (headToken tokens).kind = .fnWord) :
    Builds .operand (Tree.parseLambda below commas) tokens := by
  refine .advance (by rw [isFn]; rfl)
    (.bind_of (conserves.parameters _) (consumes.arrow _) fun _ parameters arrow => ?_)
  refine .advance (by rw [arrow]; rfl) (.ite (fun _ => ?_) fun _ => ?_)
  · exact .bind (conserves.parseBlock _) fun _ _ each =>
      .pure (.lambda _ _ parameters each) (by simp [Node.leaves, Block.leaves])
  · refine .bind (conserves.expression _ _) fun _ _ result =>
      .pure (.lambda _ _ parameters ?_) (by simp [Node.leaves, Node.leavesOfAll])
    simpa using result.widen (.inl rfl)

/-! ## Operators and calls -/

theorem parsePostfixTail (commas : Bool) {callee : Node} (built : Built true callee .operand) :
    Keeps (Built true · .operand) Node.leaves callee.leaves
      (Tree.parsePostfixTail below commas callee) tokens :=
  .accept rfl
    (.bind (conserves.arguments _ _) fun _ _ each =>
      (conserves.postfixTail _ _ (.call _ _ built each)).of_eq (by simp [Node.leaves]))
    (.pure built rfl)

theorem parseBinaryTail (commas : Bool) (minimum : Nat) {left : Node}
    (built : Built true left .operand) :
    Keeps (Built true · .operand) Node.leaves left.leaves
      (Tree.parseBinaryTail below commas minimum left) tokens := by
  refine .ite (fun _ => .pure built rfl) fun binds => .advance ?_ ?_
  · generalize (headToken tokens).kind = kind at binds
    cases kind <;> first | rfl | exact absurd (Nat.zero_le _) binds
  · exact .bind (conserves.binary _ _ _) fun _ _ right =>
      (conserves.binaryTail _ _ _ (built_binaryNode _ built right _)).of_eq
        (leaves_binaryNode ..).symm

theorem parseCommaArguments : BuildsAll .operand (Tree.parseCommaArguments below) tokens :=
  .accept rfl
    (.bind (conserves.application _ _) fun _ _ argument =>
      .bind (conserves.commaArguments _) fun _ _ rest =>
        .pure (List.forall_mem_cons.mpr ⟨argument, rest⟩) (by simp [Node.leavesOfAll]))
    (.pure (by simp) rfl)

theorem parseDotTail (commas : Bool) {position : Position} {left : Node}
    (takes : Chainable position left) :
    Keeps (Chainable position) Node.leaves left.leaves (Tree.parseDotTail below commas left)
      tokens := by
  refine .accept rfl (Returns.expect fun isName => Keeps.after (Keeps.own_of_name isName) ?_)
    (.pure takes rfl)
  refine .skip rfl fun _ => .bind (conserves.arguments _ _) fun _ _ each =>
    (conserves.dotTail _ _ (takes.call (.identifier _ _ _) each _)).of_eq ?_
  simp only [Node.leaves, Node.leavesOfAll]
  abel

theorem parsePipeTail (commas : Bool) {position : Position} {left : Node}
    (takes : Chainable position left) :
    Keeps (Chainable position) Node.leaves left.leaves (Tree.parsePipeTail below commas left)
      tokens :=
  .accept rfl
    (.bind (conserves.dotChain _ _) fun _ _ right =>
      (conserves.pipeTail _ _ (takes.pipeNode right _)).of_eq (leaves_pipeNode ..).symm)
    (.pure takes rfl)

/-! ## Loops -/

theorem parseFor (isFor : (headToken tokens).kind = .forWord) :
    Builds .statement (Tree.parseFor below) tokens :=
  .advance (by rw [isFor]; rfl) (.bind (conserves.pattern _) fun _ _ pattern => .expect rfl
    (.bind (conserves.expression _ _) fun _ _ iterable => .expect rfl
      (.bind (conserves.parseClauseBody _) fun _ _ each =>
        .pure (.forLoop _ pattern iterable each) (by simp [Node.leaves, Block.leaves]))))

theorem parseWhile (isWhile : (headToken tokens).kind = .whileWord) :
    Builds .statement (Tree.parseWhile below) tokens :=
  .advance (by rw [isWhile]; rfl) (.bind (conserves.expression _ _) fun _ _ condition =>
    .expect rfl (.bind (conserves.parseClauseBody _) fun _ _ each =>
      .pure (.whileLoop _ condition each) (by simp [Node.leaves, Block.leaves])))

/-! ## Rules that interpolate -/

variable (consumes : below.Consumes interpolate count) (interpolates : Interpolates interpolate)

include consumes interpolates

theorem parsePrimary (commas : Bool) :
    Builds .operand (Tree.parsePrimary below interpolate commas) tokens := by
  have leaf {node : Node} (built : Built true node .operand)
      (other : (headToken tokens).kind ≠ .string)
      (found : (headToken tokens).Genuine → ∃ leaf, (headToken tokens).leaf? = some leaf ∧
        node.leaves = {leaf}) :
      Builds .operand (Tree.advance >>= fun _ => pure node : Parser Node) tokens := by
    refine Keeps.advance_of (fun regular => ?_) (.pure built rfl)
    obtain ⟨leaf, found, leaves⟩ := found (Token.regular_singleton.mp regular).1
    rw [here_of_leaf regular other found, leaves, zero_add]
  unfold Builds Keeps
  rw [Tree.parsePrimary, run_bind, run_peek, ok_bind]
  cases kind : (headToken tokens).kind with
  | integer =>
      cases payload : (headToken tokens).payload with
      | integer value =>
          exact leaf (.integer _ _ _) (by simp [kind]) fun _ =>
            ⟨_, by simp [Token.leaf?, kind, payload], rfl⟩
      | _ => exact .error _
  | float =>
      cases payload : (headToken tokens).payload with
      | float value =>
          exact leaf (.float _ _ _) (by simp [kind]) fun _ =>
            ⟨_, by simp [Token.leaf?, kind, payload], rfl⟩
      | _ => exact .error _
  | string =>
      cases payload : (headToken tokens).payload with
      | segments segments =>
          dsimp only
          rw [run_bind, run_advance_eq, ok_bind]
          cases found : parseParts interpolate segments with
          | error defect => exact .error defect
          | ok parts =>
              obtain ⟨built, kept⟩ := returns_parts interpolates segments parts found
              refine .ok ⟨.template _ _ built, fun regular => ⟨regular_next regular, ?_⟩⟩
              obtain ⟨genuine, inner⟩ := Token.regular_singleton.mp (regular_head regular)
              have raw := genuine.raw
              rw [payload] at inner raw
              obtain ⟨texts, leaves⟩ := kept fun inner' text part =>
                ⟨raw inner' text part, inner inner' text part⟩
              rw [zero_add, ahead_eq_add regular, here, Token.leaves_singleton, payload,
                ← Multiset.coe_add, Node.leaves, texts, leaves]
              simp [Token.leaf?, kind, payload, Payload.parts]
      | _ => exact .error _
  | trueWord =>
      refine leaf (.boolean _ _ _) (by simp [kind]) fun genuine => ⟨_, ?_, rfl⟩
      simp [Token.leaf?, kind, genuine.trueWord kind]
  | falseWord =>
      refine leaf (.boolean _ _ _) (by simp [kind]) fun genuine => ⟨_, ?_, rfl⟩
      simp [Token.leaf?, kind, genuine.falseWord kind]
  | identifier =>
      exact Keeps.advance_of (Keeps.own_of_name kind)
        (.pure (.identifier _ _ _) (by simp [Node.leaves]))
  | leftParen => exact Keeps.advance (by rw [kind]; rfl) (conserves.parseGrouped _ _)
  | leftBracket =>
      exact Keeps.advance (by rw [kind]; rfl) (.bind (conserves.listElements _) fun _ _ each =>
        .expectClosing (.pure (.list _ _ each) (by simp [Node.leaves])))
  | fnWord => exact conserves.parseLambda tokens consumes commas kind
  | ifWord =>
      exact (conserves.parseConditional consumes .operand commas kind).mono fun _ => And.left
  | _ => exact .error _

theorem parseUnary (commas : Bool) :
    Builds .operand (Tree.parseUnary below interpolate commas) tokens :=
  .accept rfl
    (.bind (conserves.unary _ _) fun _ _ operand =>
      .pure (.unary _ _ _ operand) (by simp [Node.leaves]))
    (.accept rfl
      (.bind (conserves.unary _ _) fun _ _ operand =>
        .pure (.unary _ _ _ operand) (by simp [Node.leaves]))
      (.chain (conserves.parsePrimary _ consumes interpolates _) fun _ _ primary =>
        conserves.parsePostfixTail _ _ primary))

theorem parseBinary (commas : Bool) (minimum : Nat) :
    Builds .operand (Tree.parseBinary below interpolate commas minimum) tokens :=
  .chain (conserves.parseUnary _ consumes interpolates _) fun _ _ left =>
    conserves.parseBinaryTail _ _ _ left

theorem parseJuxtaposed (commas : Bool) :
    BuildsAll .operand (Tree.parseJuxtaposed below interpolate commas) tokens :=
  .ite (fun _ => .bind (conserves.parseBinary _ consumes interpolates _ _) fun _ _ argument =>
    .bind (conserves.juxtaposed _ _) fun _ _ rest =>
      .pure (List.forall_mem_cons.mpr ⟨argument, rest⟩) (by simp [Node.leavesOfAll]))
    fun _ => .pure (by simp) rfl

theorem parseArguments (commas : Bool) :
    BuildsAll .operand (Tree.parseArguments below interpolate commas) tokens :=
  .chain (conserves.parseJuxtaposed _ consumes interpolates _) fun _ _ each => .ite
    (fun _ => .bind (conserves.parseCommaArguments _) fun _ _ rest =>
      .pure (List.forall_mem_append.mpr ⟨each, rest⟩) (Node.leavesOfAll_append ..).symm)
    fun _ => .pure each rfl

theorem parseApplication (commas : Bool) :
    Builds .operand (Tree.parseApplication below interpolate commas) tokens := by
  refine .chain (conserves.parseBinary _ consumes interpolates _ _) fun callee _ built =>
    .bind (conserves.parseArguments _ consumes interpolates _) fun arguments _ each => ?_
  cases arguments with
  | nil => exact .pure built (by simp [Node.leavesOfAll])
  | cons argument rest => exact .pure (.call _ _ built each) (by simp [Node.leaves])

theorem parseDotChain (commas : Bool) : Keeps (Chainable .operand) Node.leaves 0
    (Tree.parseDotChain below interpolate commas) tokens :=
  .chain (conserves.parseApplication _ consumes interpolates _) fun _ _ left =>
    conserves.parseDotTail _ _ (.ofOperand left)

theorem parseExpression (commas : Bool) :
    Builds .operand (Tree.parseExpression below interpolate commas) tokens :=
  .chain (conserves.parseDotChain _ consumes interpolates _) fun _ _ left =>
    (conserves.parsePipeTail _ _ left).mono fun _ => Chainable.built

theorem parseListElements :
    BuildsAll .operand (Tree.parseListElements below interpolate) tokens :=
  .ite (fun _ => .pure (by simp) rfl) fun _ =>
    .bind (conserves.parseExpression _ consumes interpolates _) fun _ _ element =>
      .accept rfl
        (.bind (conserves.listElements _) fun _ _ rest =>
          .pure (List.forall_mem_cons.mpr ⟨element, rest⟩) (by simp [Node.leavesOfAll]))
        (.pure (by simpa using element) (by simp [Node.leavesOfAll]))

theorem parseStatement : Builds .statement (Tree.parseStatement below interpolate) tokens := by
  unfold Builds Keeps
  rw [Tree.parseStatement, run_bind, run_get, ok_bind]
  cases kind : (headToken tokens).kind with
  | forWord => exact conserves.parseFor tokens kind
  | whileWord => exact conserves.parseWhile tokens kind
  | ifWord =>
      exact Keeps.chain (conserves.parseConditional consumes .statement true kind)
        fun _ _ conditional =>
          .chain (conserves.parseDotTail _ _ ⟨conditional.1, conditional.2, .inr rfl⟩)
            fun _ _ left => (conserves.parsePipeTail _ _ left).mono fun _ => Chainable.built
  | _ =>
      exact Keeps.ite (fun binds => conserves.parseBinding consumes rfl binds) fun _ =>
        (conserves.parseExpression _ consumes interpolates _).mono fun _ built =>
          built.widen (.inl rfl)

omit consumes interpolates in
theorem parseFurther (terminator : Kind) {statement : Node}
    (built : Built true statement .statement) :
    Keeps (∀ node ∈ ·, Built true node .statement) Node.leavesOfAll statement.leaves
      (Tree.parseFurther below terminator statement) tokens :=
  .ite (fun _ => .pure (by simpa using built) (by simp [Node.leavesOfAll])) fun _ =>
    .expect rfl (.bind (conserves.statements _ _) fun _ _ rest =>
      .pure (List.forall_mem_cons.mpr ⟨built, rest⟩) (by simp [Node.leavesOfAll]))

theorem parseStatements (terminator : Kind) :
    BuildsAll .statement (Tree.parseStatements below interpolate terminator) tokens := by
  rw [parseStatements_eq]
  have skips : Keeps (fun _ => True) (fun _ => 0) 0 skipSeparators tokens :=
    .ok ⟨trivial, fun regular =>
      ⟨(ahead_skip regular).1, by rw [zero_add, zero_add, (ahead_skip regular).2]; rfl⟩⟩
  exact .chain skips fun _ _ _ => .ite (fun _ => .pure (by simp) rfl) fun _ =>
    .chain (conserves.parseStatement _ consumes interpolates) fun _ _ statement =>
      conserves.parseFurther _ _ statement

/-- What the level above builds, and what it does with leaves. -/
theorem next : (below.next interpolate).Conserves where
  pattern := conserves.parsePattern
  patternTail := conserves.parsePatternTail
  parameters := conserves.parseParameters
  statements terminator tokens := conserves.parseStatements tokens consumes interpolates terminator
  statement tokens := conserves.parseStatement tokens consumes interpolates
  conditional position commas _ isIf :=
    (conserves.parseConditional consumes position commas isIf).mono fun _ => And.left
  expression commas tokens := conserves.parseExpression tokens consumes interpolates commas
  dotChain commas tokens :=
    (conserves.parseDotChain tokens consumes interpolates commas).mono fun _ => Chainable.built
  dotTail commas _ _ tokens := conserves.parseDotTail tokens commas
  pipeTail commas _ _ tokens := conserves.parsePipeTail tokens commas
  application commas tokens := conserves.parseApplication tokens consumes interpolates commas
  arguments commas tokens := conserves.parseArguments tokens consumes interpolates commas
  juxtaposed commas tokens := conserves.parseJuxtaposed tokens consumes interpolates commas
  commaArguments := conserves.parseCommaArguments
  binary commas minimum tokens := conserves.parseBinary tokens consumes interpolates commas minimum
  binaryTail commas minimum _ tokens := conserves.parseBinaryTail tokens commas minimum
  unary commas tokens := conserves.parseUnary tokens consumes interpolates commas
  postfixTail commas _ tokens := conserves.parsePostfixTail tokens commas
  tupleTail := conserves.parseTupleTail
  listElements tokens := conserves.parseListElements tokens consumes interpolates

end Level.Conserves

theorem Level.conserves_bottom : Level.bottom.Conserves where
  pattern _ := .fail _
  patternTail _ := .fail _
  parameters _ := .fail _
  statements _ _ := .fail _
  statement _ := .fail _
  conditional _ _ _ _ := .fail _
  expression _ _ := .fail _
  dotChain _ _ := .fail _
  dotTail _ _ _ _ _ := .fail _
  pipeTail _ _ _ _ _ := .fail _
  application _ _ := .fail _
  arguments _ _ := .fail _
  juxtaposed _ _ := .fail _
  commaArguments _ := .fail _
  binary _ _ _ := .fail _
  binaryTail _ _ _ _ _ := .fail _
  unary _ _ := .fail _
  postfixTail _ _ _ _ := .fail _
  tupleTail _ := .fail _
  listElements _ := .fail _

theorem Level.conserves_ofNat {interpolate : List Token → Except Defect Node}
    (interpolates : Interpolates interpolate) (count : Nat) :
    (Level.ofNat interpolate count).Conserves := by
  induction count with
  | zero => exact Level.conserves_bottom
  | succ count ih => exact ih.next (Level.consumes_ofNat interpolate count) interpolates

/-! ## Whole programs -/

/-- All the leaves of a list that ends at its end of file are ahead. -/
theorem ahead_of_ended {tokens : List Token} (regular : Regular tokens) (ended : Ended tokens) :
    ahead tokens = (Token.leaves tokens : List Leaf) := by
  obtain ⟨before, last, rfl, isEnd, inner⟩ := ended
  have whole : (before ++ [last]).takeWhile (·.kind != .endOfFile) = before := by
    rw [List.takeWhile_append_of_pos (by simpa using inner),
      List.takeWhile_cons_of_neg (by simp [isEnd]), List.append_nil]
  have blank : Token.leaves [last] = [] :=
    Token.leaves_of_blank (regular.scanned last (by simp)) (by rw [isEnd]; rfl)
  rw [ahead, whole, Token.leaves_append, blank, List.append_nil]

/-- What is read up to the end of file has all the leaves. -/
theorem returns_ended {α : Type} {holds : α → Prop} {leaves : α → Multiset Leaf}
    {parser : Parser α} {tokens : List Token} (keeps : Keeps holds leaves 0 parser tokens)
    (expectation : Expectation) :
    Returns ((do
      let result ← parser
      let _ ← expect .endOfFile expectation
      return result : Parser α) tokens) fun result => holds result.1 ∧
        (Regular tokens → Ended tokens → leaves result.1 = (Token.leaves tokens : List Leaf)) := by
  refine Returns.bind keeps fun result ⟨here, conserved⟩ => .expect fun isEnd => .ok ⟨here, ?_⟩
  intro regular ended
  have same := (conserved regular).2
  rw [zero_add, ahead_of_ended regular ended, ahead_of_endOfFile isEnd, add_zero] at same
  exact same.symm

theorem interpolates_parseInterpolation (depth : Nat) :
    Interpolates (parseInterpolation depth) := by
  induction depth with
  | zero => exact fun _ => .error _
  | succ depth ih =>
      intro inner
      rw [parseInterpolation]
      split
      case h_1 => exact .error _
      case h_2 tokens found =>
          have keeps := (Level.conserves_ofNat ih (tokens.length + 1)).expression true tokens
          refine (returns_ended keeps _).bind fun _ ⟨built, leaves⟩ => .ok ⟨built, ?_⟩
          intro raw regular
          obtain ⟨regular, ended, same⟩ := Token.leaves_normalize raw regular found
          rw [← same]
          exact leaves regular ended

/-- The parser builds programs of the grammar, with the leaves of their tokens. -/
theorem returns_parse (tokens : List Token) : Returns (parse tokens) fun program =>
    program.Built true ∧
      (Regular tokens → Ended tokens →
        program.leaves = (Token.leaves tokens : List Leaf)) := by
  have interpolates := interpolates_parseInterpolation (Token.depthOfTokens tokens)
  have keeps :=
    (Level.conserves_ofNat interpolates (tokens.length + 1)).statements .endOfFile tokens
  exact (returns_ended keeps _).bind fun _ found => .ok found

/-- The leaves of a program are those of its tokens, each as often as it stands there. The layout of
every text has such tokens. -/
theorem parse_leaves :
    (∀ {tokens program}, Regular tokens → Ended tokens → parse tokens = .ok program →
      program.leaves = (Token.leaves tokens : List Leaf)) ∧
    ∀ {source file raw tokens}, Token.scan source file = .ok raw →
      Layout.normalize raw = .ok tokens → Regular tokens ∧ Ended tokens := by
  refine ⟨fun regular ended parsed => (returns_parse _ _ parsed).2 regular ended, ?_⟩
  intro source file raw tokens scanned arranged
  have regular := Token.regular_scanFrom (Location.Counted.start file) scanned
  obtain ⟨regular, ended, -⟩ := Token.leaves_normalize (Token.raw_scanFrom scanned) regular arranged
  exact ⟨regular, ended⟩

/-- A pattern in parentheses of its own, an update, a pipe into a call in two levels of
interpolation, and a chained conditional. -/
theorem parse_leaves_pipe :
    let source := "(a, (b)) := p\nb ++= \x60\x7bx |> f! \x60\x7by.g 1\x7d\x60, 2\x7d\x60\n" ++
      "if true then a else if b then 3 else ()"
    ∃ raw tokens program, Token.scan source none = .ok raw ∧ Layout.normalize raw = .ok tokens ∧
      parse tokens = .ok program ∧ (Token.leaves tokens).length = 16 ∧
      program.leaves = (Token.leaves tokens : List Leaf) := by
  intro source
  have found : ((Token.scan source none).toOption.bind fun raw =>
      (Layout.normalize raw).toOption.bind fun tokens =>
        (parse tokens).toOption.map fun _ => (Token.leaves tokens).length) = some 16 := by
    decide +kernel
  obtain ⟨raw, scanned, found⟩ := Option.bind_eq_some_iff.mp found
  obtain ⟨tokens, arranged, found⟩ := Option.bind_eq_some_iff.mp found
  obtain ⟨program, parsed, length⟩ := Option.map_eq_some_iff.mp found
  have scanned := Layout.eq_ok_of_toOption scanned
  have arranged := Layout.eq_ok_of_toOption arranged
  have parsed := Layout.eq_ok_of_toOption parsed
  obtain ⟨regular, ended⟩ := parse_leaves.2 scanned arranged
  exact ⟨raw, tokens, program, scanned, arranged, parsed, length,
    parse_leaves.1 regular ended parsed⟩

end Tree

end Offside
