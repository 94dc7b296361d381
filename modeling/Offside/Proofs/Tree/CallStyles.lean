import Offside.Proofs.Tree.Operands

/-!
# The ways to write a call

A function is called with arguments after it, with or without commas between them or a call marker
before them, and with its first argument in front of it, before a dot or a pipe. All of these make
the same call. Calls that are written with dots or with pipes can be chained, and each call of a
chain is the first argument of the next one.
-/

namespace Offside.Tree

open Token (Kind)

/-! ## Arguments -/

/-- An atom or an expression in brackets, as an argument of a call. -/
structure Argument where
  tokens : List Token
  node : Node
  /-- The place of a comma in front of the argument. -/
  comma : Location
  starts : StartsWith (fun kind => startsOperand kind = true) tokens
  reads : ReadsAlone (fun interpolate => (parsePrimary · interpolate true)) tokens node

namespace Argument

/-- Arguments one after the other. -/
def sequence (arguments : List Argument) : List Token := (arguments.map tokens).flatten

/-- Arguments with commas before them. -/
def commaTail (arguments : List Argument) : List Token :=
  (arguments.map fun argument => .fixed .comma argument.comma :: argument.tokens).flatten

theorem subset_sequence {arguments : List Argument} {argument : Argument}
    (found : argument ∈ arguments) : argument.tokens ⊆ sequence arguments :=
  (List.sublist_flatten_of_mem (List.mem_map_of_mem found)).subset

theorem subset_commaTail {arguments : List Argument} {argument : Argument}
    (found : argument ∈ arguments) : argument.tokens ⊆ commaTail arguments :=
  fun _ inside => List.mem_flatten.mpr
    ⟨_, List.mem_map_of_mem found, List.mem_cons_of_mem _ inside⟩

theorem startsWith_sequence {first : Kind → Prop}
    (operands : ∀ kind, startsOperand kind → first kind) (arguments : List Argument)
    {rest : List Token} (starts : StartsWith first rest) :
    StartsWith first (sequence arguments ++ rest) := by
  cases arguments with
  | nil => exact starts
  | cons argument arguments =>
      rw [sequence, List.map_cons, List.flatten_cons, List.append_assoc]
      exact (argument.starts.mono operands).append _

/-- Arguments that are read as operands. -/
abbrev Read (interpolate : List Token → Except Defect Node) (arguments : List Argument) : Prop :=
  ∀ argument ∈ arguments, ReadsOperand interpolate argument.tokens argument.node

theorem read_of_nestWithin {depth : Nat} {arguments : List Argument}
    (nests : ∀ argument ∈ arguments, Token.NestWithin depth argument.tokens) :
    Read (parseInterpolation depth) arguments :=
  fun argument found => argument.reads.operand argument.starts (nests argument found)

theorem read_of_sequence {depth : Nat} {arguments : List Argument}
    (nests : Token.NestWithin depth (sequence arguments)) :
    Read (parseInterpolation depth) arguments :=
  read_of_nestWithin fun _ found => nests.part (subset_sequence found)

variable {interpolate : List Token → Except Defect Node} {arguments : List Argument}

theorem Read.forall₂ (read : Read interpolate arguments) :
    List.Forall₂ (ReadsOperand interpolate) (arguments.map tokens) (arguments.map node) := by
  rw [List.forall₂_map_left_iff, List.forall₂_map_right_iff, List.forall₂_same]
  exact read

/-- Arguments do not start with a call marker, if none follows where there are no arguments. -/
theorem Read.head_ne_bang (read : Read interpolate arguments) {rest : List Token}
    (ends : (headToken rest).kind ≠ .bang) :
    (headToken (sequence arguments ++ rest)).kind ≠ .bang := by
  cases arguments with
  | nil => exact ends
  | cons first others =>
      have start := (read first List.mem_cons_self).starts.head (sequence others ++ rest)
      simpa [sequence] using (separate_of_startsOperand start).1

/-- Each argument after a comma is an application by itself. -/
theorem Read.commaArguments (read : Read interpolate arguments) :
    Reads interpolate parseCommaArguments (fun kind => closes kind ∧ kind ≠ .comma)
      (commaTail arguments) (arguments.map node) := by
  induction arguments with
  | nil =>
      intro count rest _ follows
      simp [parseCommaArguments, commaTail, follows.2]
  | cons argument arguments ih =>
      rw [Read, List.forall_mem_cons] at read
      intro count rest bound follows
      have next : closes (headToken (commaTail arguments ++ rest)).kind := by
        cases arguments with
        | nil => exact follows.1
        | cons second others => rfl
      simp only [commaTail, List.map_cons, List.flatten_cons, List.cons_append,
        List.append_assoc] at bound next ih ⊢
      have first := (read.1.application false).below (·.application false) (fun _ => rfl) count _
        (by simp at bound ⊢; omega) next
      have others := (ih read.2).below (·.commaArguments) (fun _ => rfl) count rest
        (by simp at bound ⊢; omega) follows
      simp [parseCommaArguments, first, others]

/-- Arguments with commas between them. -/
theorem Read.separated {first : Argument} (read : Read interpolate (first :: arguments)) :
    Reads interpolate (parseArguments · interpolate true)
      (fun kind => closes kind ∧ kind ≠ .comma) (first.tokens ++ commaTail arguments)
      ((first :: arguments).map node) := by
  rw [Read, List.forall_mem_cons] at read
  intro count rest bound follows
  rw [List.append_assoc] at bound ⊢
  have next : endsArguments (headToken (commaTail arguments ++ rest)).kind := by
    cases arguments with
    | nil => exact endsArguments_of_closes follows.1
    | cons second others => rfl
  have juxtaposed := reads_juxtaposed (.cons read.1 .nil) true count (commaTail arguments ++ rest)
    (by simpa using bound) next
  have others := Read.commaArguments read.2 count rest (by simp at bound ⊢; omega) follows
  rw [List.flatten_singleton] at juxtaposed
  simp [parseArguments, juxtaposed, others]

end Argument

theorem not_binds_of_startsOperand {kind : Kind} (starts : startsOperand kind) :
    binds kind = false := by
  cases kind <;> first | rfl | cases starts

/-! ## Chains -/

/-- A function with its arguments after the first one, and the place of the mark before it. -/
structure Link where
  mark : Location
  name : String
  place : Location
  arguments : List Argument

/-- The marks of a chain of calls. -/
inductive Connective where
  | dot
  | pipe
  deriving DecidableEq, Repr

/-- The kind of the mark's token. -/
def Connective.kind : Connective → Kind
  | .dot => .dot
  | .pipe => .pipe

namespace Link

/-- The name of the function. -/
def callee (link : Link) : Token := ⟨.identifier, .text link.name, link.place⟩

/-- The call of the function with its first argument in front of the others. -/
def call (first : Node) (link : Link) : Node :=
  .call (.identifier link.name link.place) (first :: link.arguments.map Argument.node) link.place

/-- The mark, the function and its arguments after the first one. -/
def tokens (connective : Connective) (link : Link) : List Token :=
  .fixed connective.kind link.mark :: link.callee :: Argument.sequence link.arguments

/-- The links of a chain one after the other. -/
def chain (connective : Connective) (links : List Link) : List Token :=
  (links.map (tokens connective)).flatten

theorem subset_tokens (connective : Connective) {link : Link} {argument : Argument}
    (found : argument ∈ link.arguments) : argument.tokens ⊆ link.tokens connective :=
  List.subset_cons_of_subset _
    (List.subset_cons_of_subset _ (Argument.subset_sequence found))

theorem subset_chain (connective : Connective) {links : List Link} {link : Link}
    (found : link ∈ links) : link.tokens connective ⊆ chain connective links :=
  (List.sublist_flatten_of_mem (List.mem_map_of_mem found)).subset

/-- The function with the arguments that are written after it. -/
def applied (link : Link) : Node :=
  if link.arguments.isEmpty then .identifier link.name link.place
  else .call (.identifier link.name link.place) (link.arguments.map Argument.node) link.place

/-- The call that a pipe before the function makes. -/
def piped (first : Node) (link : Link) : Node := pipeNode first link.applied link.mark

/-- A pipe before a function without arguments puts the call in its own place, so the calls are the
same only without places. -/
theorem unplaced_piped {first first' : Node} (same : first.unplaced = first'.unplaced)
    (link : Link) : (link.piped first).unplaced = (link.call first').unplaced := by
  unfold Node.unplaced at same ⊢
  cases isEmpty : link.arguments with
  | nil => simp [piped, applied, isEmpty, pipeNode, call, Node.relocate, same]
  | cons argument arguments =>
      simp [piped, applied, isEmpty, pipeNode, call, Node.relocate, same]

theorem unplaced_foldl_piped {first first' : Node} (same : first.unplaced = first'.unplaced)
    (links : List Link) :
    (links.foldl piped first).unplaced = (links.foldl call first').unplaced := by
  induction links generalizing first first' with
  | nil => exact same
  | cons link links ih => exact ih (unplaced_piped same link)

variable {interpolate : List Token → Except Defect Node} {links : List Link}

/-- After a link comes the mark of the next one or the end of the chain. -/
theorem head_chain (connective : Connective) (links : List Link) {rest : List Token}
    (ends : closes (headToken rest).kind ∧ (headToken rest).kind ≠ .comma) :
    (headToken (chain connective links ++ rest)).kind = connective.kind ∨
      closes (headToken (chain connective links ++ rest)).kind ∧
        (headToken (chain connective links ++ rest)).kind ≠ .comma := by
  cases links with
  | nil => exact .inr ends
  | cons link links => exact .inl rfl

theorem endsArguments_chain (connective : Connective) (links : List Link) {rest : List Token}
    (ends : closes (headToken rest).kind ∧ (headToken rest).kind ≠ .comma) :
    endsArguments (headToken (chain connective links ++ rest)).kind ∧
      (headToken (chain connective links ++ rest)).kind ≠ .comma := by
  rcases head_chain connective links ends with mark | ends
  · rw [mark]
    cases connective <;> decide
  · exact ⟨endsArguments_of_closes ends.1, ends.2⟩

theorem head_chain_ne_dot (links : List Link) {rest : List Token}
    (ends : closes (headToken rest).kind ∧ (headToken rest).kind ≠ .comma) :
    (headToken (chain .pipe links ++ rest)).kind ≠ .dot := by
  rcases head_chain .pipe links ends with mark | ends
  · simp [mark, Connective.kind]
  · exact (closes_spec ends.1).2.2.2.1

/-- Dots make one call after the other of what is in front of them. -/
theorem reads_dotTail (read : ∀ link ∈ links, Argument.Read interpolate link.arguments)
    (left : Node) :
    Reads interpolate (parseDotTail · true left) (fun kind => closes kind ∧ kind ≠ .comma)
      (chain .dot links) (links.foldl call left) := by
  induction links generalizing left with
  | nil =>
      intro count rest _ follows
      simp [parseDotTail, chain, (closes_spec follows.1).2.2.2.1]
  | cons link links ih =>
      rw [List.forall_mem_cons] at read
      intro count rest bound follows
      -- The arguments end at the next dot, so the tail after them is read by itself.
      have next := endsArguments_chain .dot links follows
      have notBang := read.1.head_ne_bang (endsArguments_spec next.1).1.1
      have expand : chain .dot (link :: links) ++ rest = .fixed .dot link.mark :: link.callee ::
          (Argument.sequence link.arguments ++ (chain .dot links ++ rest)) := by
        simp [chain, tokens, Connective.kind]
      rw [expand] at bound ⊢
      have arguments := (reads_arguments read.1.forall₂ true).below (·.arguments true)
        (fun _ => rfl) count (chain .dot links ++ rest)
        (by simp [Argument.sequence] at bound ⊢; omega) next
      have others := (ih read.2 (link.call left)).below (·.dotTail true (link.call left))
        (fun _ => rfl) count rest (by simp at bound ⊢; omega) follows
      rw [← Argument.sequence] at arguments
      refine Eq.trans ?_ others
      simp [parseDotTail, callee, notBang, arguments, wordOf, Payload.shown, call]

/-- A function after a pipe is applied to the arguments after it. -/
theorem reads_dotChain {link : Link} (read : Argument.Read interpolate link.arguments) :
    Reads interpolate (parseDotChain · interpolate true)
      (fun kind => (endsArguments kind ∧ kind ≠ .comma) ∧ kind ≠ .dot)
      (link.callee :: Argument.sequence link.arguments) link.applied := by
  have name : ReadsOperand interpolate [link.callee] (.identifier link.name link.place) :=
    .identifier link.name link.place
  have application : Reads interpolate (parseApplication · interpolate true)
      (fun kind => endsArguments kind ∧ kind ≠ .comma)
      ([link.callee] ++ Argument.sequence link.arguments) link.applied := by
    cases isEmpty : link.arguments with
    | nil =>
        simp only [applied, isEmpty]
        exact (reads_application_of_binary (name.binary true 0)).mono fun _ follows =>
          endsArguments_spec follows.1
    | cons first others =>
        have called := name.call read.forall₂ (by simp [isEmpty]) true
        simpa [applied, isEmpty, Argument.sequence, Node.location] using called
  intro count rest bound follows
  have run := application count rest bound follows.1
  simp only [List.cons_append, List.nil_append] at run ⊢
  simp [parseDotChain, run, parseDotTail, follows.2]

/-- Pipes make one call after the other of what is in front of them. -/
theorem reads_pipeTail (read : ∀ link ∈ links, Argument.Read interpolate link.arguments)
    (left : Node) :
    Reads interpolate (parsePipeTail · true left) (fun kind => closes kind ∧ kind ≠ .comma)
      (chain .pipe links) (links.foldl piped left) := by
  induction links generalizing left with
  | nil =>
      intro count rest _ follows
      simp [parsePipeTail, chain, (closes_spec follows.1).2.2.2.2]
  | cons link links ih =>
      rw [List.forall_mem_cons] at read
      intro count rest bound follows
      have next := endsArguments_chain .pipe links follows
      have expand : chain .pipe (link :: links) ++ rest = .fixed .pipe link.mark ::
          ((link.callee :: Argument.sequence link.arguments) ++ (chain .pipe links ++ rest)) := by
        simp [chain, tokens, Connective.kind]
      rw [expand] at bound ⊢
      have right := (reads_dotChain read.1).below (·.dotChain true) (fun _ => rfl) count
        (chain .pipe links ++ rest) (by simp at bound ⊢; omega)
        ⟨next, head_chain_ne_dot links follows⟩
      have others := (ih read.2 (link.piped left)).below (·.pipeTail true (link.piped left))
        (fun _ => rfl) count rest (by simp at bound ⊢; omega) follows
      rw [List.cons_append] at right
      refine Eq.trans ?_ others
      simp [parsePipeTail, right, piped]

/-- A chain of calls on an operand is an expression. -/
theorem reads_chain {tokens : List Token} {first : Node}
    (operand : ReadsOperand interpolate tokens first)
    (read : ∀ link ∈ links, Argument.Read interpolate link.arguments) (connective : Connective) :
    ∃ node, Reads interpolate (parseExpression · interpolate true)
        (fun kind => closes kind ∧ kind ≠ .comma) (tokens ++ chain connective links) node ∧
      node.unplaced = (links.foldl call first).unplaced := by
  have application := (reads_application_of_binary (operand.binary true 0)).mono
    fun kind (ends : endsArguments kind) => endsArguments_spec ends
  cases connective with
  | dot =>
      refine ⟨_, fun count rest bound follows => ?_, rfl⟩
      rw [List.append_assoc] at bound ⊢
      have run := application count _ bound (endsArguments_chain .dot links follows).1
      have dots := reads_dotTail read first count rest (by simp at bound ⊢; omega) follows
      simp [parseExpression, parseDotChain, run, dots, parsePipeTail,
        (closes_spec follows.1).2.2.2.2]
  | pipe =>
      refine ⟨_, fun count rest bound follows => ?_, unplaced_foldl_piped rfl links⟩
      rw [List.append_assoc] at bound ⊢
      have run := application count _ bound (endsArguments_chain .pipe links follows).1
      have pipes := reads_pipeTail read first count rest (by simp at bound ⊢; omega) follows
      simp [parseExpression, parseDotChain, run, parseDotTail, head_chain_ne_dot links follows,
        pipes]

end Link

/-! ## Styles -/

/-- The ways to write a call. -/
inductive CallStyle where
  /-- The arguments follow the function. -/
  | spaced
  /-- There are commas between the arguments. -/
  | separated
  /-- A call marker is before the arguments. -/
  | marked
  /-- The first argument and a dot or a pipe are in front of the function. -/
  | chained (connective : Connective)
  deriving DecidableEq, Repr

namespace CallStyle

/-- The tokens of a call, where the link has the arguments after the first one. -/
def tokens (first : Argument) (link : Link) : CallStyle → List Token
  | .spaced => [link.callee] ++ Argument.sequence (first :: link.arguments)
  | .separated => [link.callee] ++ (first.tokens ++ Argument.commaTail link.arguments)
  | .marked => [link.callee] ++
      .fixed .bang link.mark :: Argument.sequence (first :: link.arguments)
  | .chained connective => first.tokens ++ link.tokens connective

variable {interpolate : List Token → Except Defect Node} {first : Argument} {link : Link}

/-- Each style makes the call of the function with all of the arguments. -/
theorem reads_tokens (read : Argument.Read interpolate (first :: link.arguments))
    (style : CallStyle) :
    ∃ node, Reads interpolate (parseExpression · interpolate true) (· = .endOfFile)
        (style.tokens first link) node ∧
      node.unplaced = (link.call first.node).unplaced := by
  have name : ReadsOperand interpolate [link.callee] (.identifier link.name link.place) :=
    .identifier link.name link.place
  have ends (kind : Kind) (isEnd : kind = .endOfFile) : closes kind ∧ kind ≠ .comma := by
    simp [isEnd, closes]
  have endsAll (kind : Kind) (isEnd : kind = .endOfFile) :
      endsArguments kind ∧ kind ≠ .comma :=
    ⟨endsArguments_of_closes (ends kind isEnd).1, (ends kind isEnd).2⟩
  have expression {tokens : List Token} {node : Node}
      (reads : Reads interpolate (parseApplication · interpolate true) (· = .endOfFile) tokens
        node) :
      Reads interpolate (parseExpression · interpolate true) (· = .endOfFile) tokens node :=
    reads_expression_of_closed reads fun kind isEnd => (ends kind isEnd).1
  cases style with
  | spaced =>
      have called := name.call read.forall₂ (by simp) true
      exact ⟨_, expression (called.mono endsAll), rfl⟩
  | separated =>
      have starts := (read first List.mem_cons_self).starts.append
        (Argument.commaTail link.arguments)
      have called := name.called (starts.mono fun _ => separate_of_startsOperand) (by simp)
        read.separated
      exact ⟨_, expression (called.mono ends), rfl⟩
  | marked =>
      -- The marker binds tighter than application, which finds no further arguments.
      have called := name.marked link.mark (reads_arguments read.forall₂ true)
      have application := reads_application_of_binary (reads_binary_of_unary 0 called)
      refine ⟨_, expression (application.mono fun kind isEnd => ?_), rfl⟩
      obtain ⟨⟨notBang, loose⟩, noArgument⟩ := endsArguments_spec (endsAll kind isEnd).1
      exact ⟨⟨⟨notBang, endsAll kind isEnd⟩, loose⟩, noArgument⟩
  | chained connective =>
      rw [Argument.Read, List.forall_mem_cons] at read
      have readLinks : ∀ other ∈ [link], Argument.Read interpolate other.arguments := by
        simpa using read.2
      obtain ⟨node, reads, same⟩ := Link.reads_chain read.1 readLinks connective
      rw [Link.chain, List.map_singleton, List.flatten_singleton] at reads
      exact ⟨node, reads.mono ends, same⟩

/-- The tokens of the arguments are part of those of the call. -/
theorem subset_tokens (style : CallStyle) {argument : Argument}
    (found : argument ∈ first :: link.arguments) : argument.tokens ⊆ style.tokens first link := by
  have inSequence := Argument.subset_sequence found
  rw [List.mem_cons] at found
  cases style with
  | spaced => exact List.subset_append_of_subset_right _ inSequence
  | separated =>
      refine List.subset_append_of_subset_right _ ?_
      rcases found with rfl | found
      · exact List.subset_append_left ..
      · exact List.subset_append_of_subset_right _ (Argument.subset_commaTail found)
  | marked =>
      exact List.subset_append_of_subset_right _ (List.subset_cons_of_subset _ inSequence)
  | chained connective =>
      rcases found with rfl | found
      · exact List.subset_append_left ..
      · exact List.subset_append_of_subset_right _ (Link.subset_tokens connective found)

/-- A call is one statement, however it is written. -/
theorem parse_style (style : CallStyle) (first : Argument) (link : Link) (last : Location) :
    ∃ read, parse (style.tokens first link ++ [.inserted .endOfFile last]) = .ok read ∧
      read.statements.map Node.unplaced = [(link.call first.node).unplaced] := by
  have read (depth : Nat) (nests : Token.NestWithin depth (style.tokens first link)) :
      Argument.Read (parseInterpolation depth) (first :: link.arguments) :=
    Argument.read_of_nestWithin fun _ found => nests.part (style.subset_tokens found)
  have reads (depth : Nat) (nests : Token.NestWithin depth (style.tokens first link)) :=
    reads_tokens (read depth nests) style
  have starts := first.starts.mono fun _ start => not_binds_of_startsOperand start
  cases style with
  | spaced | separated => exact parse_of_name last (starts.append _) reads
  | marked => exact parse_of_name last ⟨_, _, rfl, rfl⟩ reads
  | chained connective =>
      refine parse_of_operand first.node last ?_ fun depth nests =>
        ⟨read depth nests first List.mem_cons_self, reads depth nests⟩
      cases connective <;> rfl

end CallStyle

/-- A chain of calls is one statement, and each call is the first argument of the next one. -/
theorem Link.parse_chain (connective : Connective) (first : Argument) (links : List Link)
    (last : Location) :
    ∃ read, parse (first.tokens ++ Link.chain connective links ++ [.inserted .endOfFile last]) =
        .ok read ∧
      read.statements.map Node.unplaced = [(links.foldl Link.call first.node).unplaced] := by
  refine parse_of_operand first.node last ?_ fun depth nests => ?_
  · cases links with
    | nil => rfl
    | cons link links => cases connective <;> rfl
  · rw [Token.nestWithin_append] at nests
    have readFirst := first.reads.operand first.starts nests.1
    have readLinks : ∀ link ∈ links, Argument.Read (parseInterpolation depth) link.arguments :=
      fun link found => Argument.read_of_nestWithin fun _ inside =>
        nests.2.part (List.Subset.trans (subset_tokens connective inside)
          (subset_chain connective found))
    obtain ⟨node, reads, same⟩ := Link.reads_chain readFirst readLinks connective
    exact ⟨readFirst, node, reads.mono fun _ isEnd => by simp [isEnd, closes], same⟩

/-- All ways to write a call make the same call, and chains of calls that are written with dots or
with pipes make the call of the last function with the rest of the chain as its first argument. -/
theorem parse_calls :
    (∀ (style : CallStyle) (first : Argument) (link : Link) (last : Location),
      ∃ read, parse (style.tokens first link ++ [.inserted .endOfFile last]) = .ok read ∧
        read.statements.map Node.unplaced = [(link.call first.node).unplaced]) ∧
    ∀ (connective : Connective) (first : Argument) (links : List Link) (last : Location),
      ∃ read, parse (first.tokens ++ Link.chain connective links ++ [.inserted .endOfFile last]) =
          .ok read ∧
        read.statements.map Node.unplaced = [(links.foldl Link.call first.node).unplaced] :=
  ⟨CallStyle.parse_style, Link.parse_chain⟩

/-- The argument `(x, [1])`. -/
def sampleArgument : Argument where
  tokens := [.fixed .leftParen (.start none), ⟨.identifier, .text "x", .start none⟩,
    .fixed .comma (.start none), .fixed .leftBracket (.start none),
    ⟨.integer, .integer 1, .start none⟩, .fixed .rightBracket (.start none),
    .fixed .rightParen (.start none)]
  node := .tuple [.identifier "x" (.start none), .list [.integer 1 (.start none)] (.start none)]
    (.start none)
  comma := .start none
  starts := ⟨_, _, rfl, rfl⟩
  reads := ⟨.start none, rfl⟩

/-- The function `f` with the argument `(x, [1])`. -/
def sampleLink : Link := ⟨.start none, "f", .start none, [sampleArgument]⟩

/-- The call `(x, [1]) |> f (x, [1])`, and the same call with a dot and a call of the result. -/
theorem parse_calls_sampleLink :
    (∃ read, parse ((CallStyle.chained .pipe).tokens sampleArgument sampleLink ++
        [.inserted .endOfFile (.start none)]) = .ok read ∧
      read.statements.map Node.unplaced =
        [.call (.identifier "f" (.start none)) [sampleArgument.node, sampleArgument.node]
          (.start none)]) ∧
    ∃ read, parse (sampleArgument.tokens ++ Link.chain .dot [sampleLink, sampleLink] ++
        [.inserted .endOfFile (.start none)]) = .ok read ∧
      read.statements.map Node.unplaced =
        [.call (.identifier "f" (.start none))
          [.call (.identifier "f" (.start none)) [sampleArgument.node, sampleArgument.node]
            (.start none), sampleArgument.node] (.start none)] :=
  ⟨parse_calls.1 (.chained .pipe) sampleArgument sampleLink (.start none),
    parse_calls.2 .dot sampleArgument [sampleLink, sampleLink] (.start none)⟩

end Offside.Tree
