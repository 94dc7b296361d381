import Offside.Proofs.Tree.Stopping

/-!
# Other tokens in the place of the end of file

Tokens are read twice: up to an end of file, and with other tokens in its place. The end of a
statement may stand before the end of file. A parser carries over to another one if the second reads
in the second list what the first reads in the first list. A parser that looks at the token after
those that it consumes may ask that no expression goes on with the other tokens. Where the two
parsers take commas in different ways, they agree as long as they consume no comma outside of
brackets.
-/

namespace Offside.Tree

open Token (Kind)

/-! ## Commas outside of brackets -/

/-- Whether no comma stands outside of all brackets, after `depth` brackets were opened. -/
def commaFree : (depth : Nat) → List Token → Bool
  | _, [] => true
  | depth, token :: rest =>
    (depth != 0 || token.kind != .comma) && commaFree (Layout.depthAfter depth token.kind) rest

theorem commaFree_append (depth : Nat) (first second : List Token) :
    commaFree depth (first ++ second) = (commaFree depth first &&
      commaFree ((first.map Token.kind).foldl Layout.depthAfter depth) second) := by
  induction first generalizing depth with
  | nil => rfl
  | cons token rest ih => simp [commaFree, ih, Bool.and_assoc]

/-! ## Two lists -/

theorem kind_eq_statementEnd {kind : Kind} (ends : endsToplevel kind) (other : kind ≠ .endOfFile) :
    kind = .statementEnd :=
  forall_endsToplevel (fun kind => kind ≠ .endOfFile → kind = .statementEnd)
    (fun isEnd => absurd rfl isEnd) (fun _ => rfl) kind ends other

theorem skip_of_statementEnd {tokens : List Token}
    (separates : (headToken tokens).kind = .statementEnd) : skip tokens = skip (next tokens) := by
  cases tokens with
  | nil => simp [headToken, default] at separates
  | cons token rest =>
      rw [next_of_kind separates (by decide), skip,
        List.dropWhile_cons_of_pos (by simpa using separates)]
      rfl

/-- The end of some tokens, and other tokens in its place. -/
structure Sequel where
  /-- The end of file, perhaps after the end of a statement. -/
  ending : List Token
  /-- The tokens in its place. -/
  others : List Token
  ends : endsToplevel (headToken ending).kind
  last : (headToken (next ending)).kind = .endOfFile

/-- The tokens at which an expression ends, whatever it is. -/
def stops : Kind → Bool
  | .endOfFile | .statementEnd | .rightParen => true
  | _ => false

theorem stops_closes {kind : Kind} (stop : stops kind) : closes kind := by
  cases kind <;> first | rfl | cases stop

theorem stops_of_ends {kind : Kind} (ends : endsToplevel kind) : stops kind :=
  forall_endsToplevel (fun kind => stops kind) rfl rfl kind ends

/-- The tokens of statements that are consumed in any number. -/
def isInner (kind : Kind) : Bool := isPlain kind && kind != .statementEnd

theorem isInner_of_isBindingOperator {kind : Kind} (operator : isBindingOperator kind) :
    isInner kind := by
  cases kind <;> first | rfl | cases operator

theorem isInner_of_updateOperator {kind : Kind} (updates : (updateOperator? kind).isSome) :
    isInner kind := by
  cases kind <;> first | rfl | cases updates

theorem isInner_of_precedence {kind : Kind} {minimum : Nat} (binds : ¬precedence kind ≤ minimum) :
    isInner kind := by
  cases kind <;> first | rfl | exact absurd (Nat.zero_le _) binds

theorem ne_of_stops {kind other : Kind} (stop : stops kind) (inner : isInner other) :
    kind ≠ other := by
  rintro rfl
  cases kind <;> simp_all [stops, isInner, isPlain, Kind.isClosing]

theorem ne_endOfFile_of_isInner {kind : Kind} (inner : isInner kind) : kind ≠ .endOfFile :=
  (ne_of_stops rfl inner).symm

theorem flat_of_isInner {kind : Kind} (inner : isInner kind) : Layout.depthAfter 0 kind = 0 :=
  depthAfter_of_passes (passes_of_isPlain (Bool.and_eq_true_iff.mp inner).1 0)

/-- Nothing but ends of statements. -/
def Idle (tokens : List Token) : Prop := ∀ token ∈ tokens, token.kind = .statementEnd

theorem Idle.of_append {first second : List Token} (idle : Idle (first ++ second)) :
    Idle second :=
  fun token member => idle token (List.mem_append_right first member)

namespace Sequel

/-- Tokens up to their end. -/
def alone (sequel : Sequel) (tokens : List Token) : List Token := tokens ++ sequel.ending

/-- Tokens with the other ones after them. -/
def joined (sequel : Sequel) (tokens : List Token) : List Token := tokens ++ sequel.others

/-- No expression goes on with the other tokens. -/
structure Stops (sequel : Sequel) : Prop where
  head : stops (headToken sequel.others).kind
  ahead : ¬ElseAhead sequel.others

/-- Whenever a parser succeeds on tokens up to their end, another one does the same with the other
tokens in its place. If nothing but ends of statements is left, this may ask something of the
other tokens, and if the parsers are not the `same`, that no comma outside of brackets is consumed.
-/
def Carries (sequel : Sequel) {α : Type} (same needs : Prop) (parser parser' : Parser α)
    (tokens : List Token) : Prop :=
  Returns (parser (sequel.alone tokens)) fun result => ∃ used later, tokens = used ++ later ∧
    result.2 = sequel.alone later ∧
    ((Idle later → needs) → same ∨ commaFree 0 used →
      parser' (sequel.joined tokens) = .ok (result.1, sequel.joined later))

/-- Ends of statements are followed by the end of the tokens. -/
theorem head_of_idle (sequel : Sequel) {tokens : List Token} (idle : Idle tokens) :
    endsToplevel (headToken (sequel.alone tokens)).kind := by
  cases tokens with
  | nil => exact sequel.ends
  | cons token rest =>
      have separates : (headToken (sequel.alone (token :: rest))).kind = .statementEnd :=
        idle token List.mem_cons_self
      rw [separates]
      rfl

theorem closes_alone (sequel : Sequel) : closes (headToken (sequel.alone [])).kind :=
  stops_closes (stops_of_ends sequel.ends)

theorem Stops.closes {sequel : Sequel} (stops : sequel.Stops) :
    Tree.closes (headToken (sequel.joined [])).kind :=
  stops_closes stops.head

theorem head_alone_ne (sequel : Sequel) {kind : Kind} (inner : isInner kind) :
    (headToken (sequel.alone [])).kind ≠ kind :=
  ne_of_stops (stops_of_ends sequel.ends) inner

/-- After the ends of statements comes the end of file. -/
theorem head_skip (sequel : Sequel) :
    (headToken (Tree.skip (sequel.alone []))).kind = .endOfFile := by
  change (headToken (Tree.skip sequel.ending)).kind = .endOfFile
  by_cases isEnd : (headToken sequel.ending).kind = .endOfFile
  · rwa [skip_of_endOfFile isEnd]
  · rw [skip_of_statementEnd (kind_eq_statementEnd sequel.ends isEnd),
      skip_of_endOfFile sequel.last, sequel.last]

theorem not_ahead (sequel : Sequel) : ¬ElseAhead (sequel.alone []) := fun ahead => by
  cases sequel.last.symm.trans ahead.next

/-- Where a token is asked for, ends of statements are of no help. -/
theorem stuck_expect (sequel : Sequel) {α : Type} {kind : Kind} {expectation : Expectation}
    {goOn : Token → Parser α} {tokens : List Token} (inner : isInner kind) (idle : Idle tokens) :
    ∃ defect, (expect kind expectation >>= goOn) (sequel.alone tokens) = .error defect :=
  fails_bind (expect_fails expectation
    (ne_of_stops (stops_of_ends (sequel.head_of_idle idle)) inner))

theorem stuck_expectClosing (sequel : Sequel) {α : Type} {delimiter : Delimiter}
    {opened : Location} {goOn : Unit → Parser α} {tokens : List Token} (idle : Idle tokens) :
    ∃ defect, (expectClosing delimiter opened >>= goOn) (sequel.alone tokens) = .error defect :=
  fails_bind (expectClosing_fails opened (forall_endsToplevel (· ≠ delimiter.closingKind)
    (by cases delimiter <;> decide) (by cases delimiter <;> decide) _ (sequel.head_of_idle idle)))

end Sequel

namespace Sequel.Carries

variable {sequel : Sequel} {α β : Type} {same needs : Prop} {tokens rest : List Token}
  {token : Token} {kind : Kind}

theorem pure (result : α) :
    sequel.Carries same needs (Pure.pure result) (Pure.pure result) tokens :=
  .ok ⟨[], tokens, rfl, rfl, fun _ _ => rfl⟩

theorem of_error {parser parser' : Parser α}
    (fails : ∃ defect, parser (sequel.alone tokens) = .error defect) :
    sequel.Carries same needs parser parser' tokens := by
  obtain ⟨defect, fails⟩ := fails
  rw [Carries, fails]
  exact .error defect

theorem mono {parser parser' : Parser α} {same' needs' : Prop}
    (carries : sequel.Carries same needs parser parser' tokens) (weaker : same' → same)
    (stronger : needs' → needs) : sequel.Carries same' needs' parser parser' tokens := by
  intro result found
  obtain ⟨used, later, split, left, carry⟩ := carries result found
  exact ⟨used, later, split, left, fun idle free =>
    carry (fun nothing => stronger (idle nothing)) (free.imp_left weaker)⟩

theorem of_eq {parser parser' goOn goOn' : Parser α}
    (run : parser (sequel.alone tokens) = goOn (sequel.alone tokens))
    (run' : parser' (sequel.joined tokens) = goOn' (sequel.joined tokens))
    (goesOn : sequel.Carries same needs goOn goOn' tokens) :
    sequel.Carries same needs parser parser' tokens := by
  rwa [Carries, run, run']

/-- Where nothing but ends of statements is left, what is asked of the other tokens may decide what
is done. -/
theorem of_idle {parser parser' goOn goOn' : Parser α} (idle : Idle tokens)
    (run : parser (sequel.alone tokens) = goOn (sequel.alone tokens))
    (run' : needs → parser' (sequel.joined tokens) = goOn' (sequel.joined tokens))
    (goesOn : sequel.Carries same needs goOn goOn' tokens) :
    sequel.Carries same needs parser parser' tokens := by
  intro result found
  obtain ⟨used, later, rfl, left, carry⟩ := goesOn result (run ▸ found)
  refine ⟨used, later, rfl, left, fun needed free => ?_⟩
  rw [run' (needed idle.of_append), carry needed free]

/-- Both parsers consume the token in front. -/
theorem consume {parser parser' : Parser β} {goOn goOn' : Parser β}
    (run : parser (sequel.alone (token :: rest)) = goOn (sequel.alone rest))
    (run' : parser' (sequel.joined (token :: rest)) = goOn' (sequel.joined rest))
    (flat : same ∨ Layout.depthAfter 0 token.kind = 0)
    (goesOn : sequel.Carries same needs goOn goOn' rest) :
    sequel.Carries same needs parser parser' (token :: rest) := by
  intro result found
  obtain ⟨used, later, rfl, left, carry⟩ := goesOn result (run ▸ found)
  refine ⟨token :: used, later, rfl, left, fun idle free => ?_⟩
  rw [run', carry idle]
  refine free.elim .inl fun free => flat.imp_right fun flat => ?_
  rw [commaFree, flat, Bool.and_eq_true] at free
  exact free.2

/-- What follows may depend on what holds of the first result and of the tokens left. The first
parser may ask more of the other tokens than the whole, if only ends of statements are left to what
follows and that fails there. -/
theorem bind_of {first : Prop} {parser parser' : Parser α} {goOn goOn' : α → Parser β}
    {holds : α × List Token → Prop} (taken : Takes 0 parser (sequel.alone tokens))
    (carries : sequel.Carries same first parser parser' tokens)
    (found : Returns (parser (sequel.alone tokens)) holds)
    (reaches : ∀ result later, Idle later → needs →
      first ∨ ∃ defect, goOn result (sequel.alone later) = .error defect)
    (goesOn : ∀ result later, holds (result, sequel.alone later) → later.length ≤ tokens.length →
      sequel.Carries same needs (goOn result) (goOn' result) later) :
    sequel.Carries same needs (parser >>= goOn) (parser' >>= goOn') tokens := by
  rw [Carries, run_bind]
  cases one : parser (sequel.alone tokens) with
  | error defect => exact .error defect
  | ok result =>
      obtain ⟨value, remaining⟩ := result
      obtain ⟨used, left, rfl, rfl, carry⟩ := carries _ one
      have balanced : (used.map Token.kind).foldl Layout.depthAfter 0 = 0 := by
        obtain ⟨consumed, split, -, balanced⟩ := (taken _ one).exists_append
        have same : used ++ sequel.alone left = consumed ++ sequel.alone left := by
          rwa [alone, List.append_assoc] at split
        rw [List.append_cancel_right same]
        exact balanced 0
      intro last two
      obtain ⟨further, later, rfl, rest, carryOn⟩ :=
        goesOn value left (found _ one) (by simp) last two
      refine ⟨used ++ further, later, by simp, rest, fun idle free => ?_⟩
      have freeParts : same ∨ (commaFree 0 used ∧ commaFree 0 further) := by
        rwa [commaFree_append, balanced, Bool.and_eq_true] at free
      have firstNeeds (idleLeft : Idle (further ++ later)) : first := by
        refine (reaches value _ idleLeft (idle idleLeft.of_append)).resolve_right ?_
        rintro ⟨defect, fails⟩
        cases fails.symm.trans two
      rw [run_bind, carry firstNeeds (freeParts.imp_right And.left)]
      exact carryOn idle (freeParts.imp_right And.right)

theorem bind {parser parser' : Parser α} {goOn goOn' : α → Parser β}
    (taken : Takes 0 parser (sequel.alone tokens))
    (carries : sequel.Carries same needs parser parser' tokens)
    (goesOn : ∀ result later, later.length ≤ tokens.length →
      sequel.Carries same needs (goOn result) (goOn' result) later) :
    sequel.Carries same needs (parser >>= goOn) (parser' >>= goOn') tokens :=
  bind_of taken carries (fun _ _ => trivial) (fun _ _ _ needed => .inl needed)
    fun result later (_ : True) => goesOn result later

theorem lift {outcome outcome' : Except Defect α}
    (agree : Returns outcome fun result => outcome' = .ok result) :
    sequel.Carries same needs (liftM outcome) (liftM outcome') tokens := by
  cases found : outcome with
  | error defect => exact of_error ⟨defect, rfl⟩
  | ok result =>
      rw [agree result found]
      exact pure result

/-- What follows comes after the first token. -/
theorem bindFirst {parser parser' : Parser α} {goOn goOn' : α → Parser β}
    (taken : TakesFirst parser (sequel.alone tokens))
    (carries : sequel.Carries same needs parser parser' tokens)
    (goesOn : ∀ result later, later.length < tokens.length →
      sequel.Carries same needs (goOn result) (goOn' result) later) :
    sequel.Carries same needs (parser >>= goOn) (parser' >>= goOn') tokens :=
  bind_of taken.takes carries taken (fun _ _ _ needed => .inl needed)
    fun result later consumed _ => goesOn result later (by simpa [alone] using consumed.length_lt)

/-- What follows fails at ends of statements, so the first parser may ask for anything there. -/
theorem bindClosed {parser parser' : Parser α} {goOn goOn' : α → Parser β}
    (taken : Takes 0 parser (sequel.alone tokens))
    (carries : sequel.Carries same False parser parser' tokens)
    (stuck : ∀ result later, Idle later → ∃ defect,
      goOn result (sequel.alone later) = .error defect)
    (goesOn : ∀ result later, later.length ≤ tokens.length →
      sequel.Carries same needs (goOn result) (goOn' result) later) :
    sequel.Carries same needs (parser >>= goOn) (parser' >>= goOn') tokens :=
  bind_of taken carries (fun _ _ => trivial)
    (fun result later idle _ => .inr (stuck result later idle))
    fun result later (_ : True) => goesOn result later

theorem ite {condition : Prop} [Decidable condition] {first first' second second' : Parser α}
    (whenTrue : condition → sequel.Carries same needs first first' tokens)
    (whenFalse : ¬condition → sequel.Carries same needs second second' tokens) :
    sequel.Carries same needs (if condition then first else second)
      (if condition then first' else second') tokens := by
  split
  · exact whenTrue ‹_›
  · exact whenFalse ‹_›

/-! ## Reading tokens -/

theorem peek_cons {goOn goOn' : Token → Parser α}
    (goesOn : sequel.Carries same needs (goOn token) (goOn' token) (token :: rest)) :
    sequel.Carries same needs (peek >>= goOn) (peek >>= goOn') (token :: rest) := goesOn

theorem peekKind_cons {goOn goOn' : Kind → Parser α}
    (goesOn : sequel.Carries same needs (goOn token.kind) (goOn' token.kind) (token :: rest)) :
    sequel.Carries same needs (peekKind >>= goOn) (peekKind >>= goOn') (token :: rest) := goesOn

/-- The first of the other tokens must be as good as the end. -/
theorem test {condition : Kind → Prop} [DecidablePred condition]
    {first first' second second' : Parser α}
    (ends : needs → (condition (headToken (sequel.joined [])).kind ↔
      condition (headToken (sequel.alone [])).kind))
    (whenTrue : condition (headToken (sequel.alone tokens)).kind →
      sequel.Carries same needs first first' tokens)
    (whenFalse : ¬condition (headToken (sequel.alone tokens)).kind →
      sequel.Carries same needs second second' tokens) :
    sequel.Carries same needs (peekKind >>= fun kind => if condition kind then first else second)
      (peekKind >>= fun kind => if condition kind then first' else second') tokens := by
  have step (list : List Token) {one two : Parser α} :
      (peekKind >>= fun kind => if condition kind then one else two) list =
        (if condition (headToken list).kind then one else two) list := rfl
  cases tokens with
  | nil =>
      refine of_idle (List.forall_mem_nil _) (step _) (fun needed => (step _).trans ?_)
        (ite whenTrue whenFalse)
      exact congrFun (if_congr (ends needed) rfl rfl) _
  | cons token rest => exact of_eq (step _) (step _) (ite whenTrue whenFalse)

theorem advance_cons {goOn goOn' : Token → Parser α} (inner : token.kind ≠ .endOfFile)
    (flat : same ∨ Layout.depthAfter 0 token.kind = 0)
    (goesOn : sequel.Carries same needs (goOn token) (goOn' token) rest) :
    sequel.Carries same needs (Tree.advance >>= goOn) (Tree.advance >>= goOn') (token :: rest) := by
  refine consume ?_ ?_ flat goesOn
  · simp [alone, inner]
  · simp [joined, inner]

theorem accept_cons {first first' second second' : Parser α} (inner : kind ≠ .endOfFile)
    (flat : same ∨ Layout.depthAfter 0 kind = 0)
    (whenTrue : token.kind = kind → sequel.Carries same needs first first' rest)
    (whenFalse : token.kind ≠ kind → sequel.Carries same needs second second' (token :: rest)) :
    sequel.Carries same needs (Tree.accept kind >>= fun found => if found then first else second)
      (Tree.accept kind >>= fun found => if found then first' else second') (token :: rest) := by
  by_cases here : token.kind = kind
  · refine consume ?_ ?_ (here ▸ flat) (whenTrue here)
    · simp [alone, here, inner]
    · simp [joined, here, inner]
  · refine of_eq ?_ ?_ (whenFalse here)
    · simp [alone, here]
    · simp [joined, here]

/-- The other tokens have no token that may be consumed. -/
theorem accept {first first' second second' : Parser α} (stops : needs → sequel.Stops)
    (inner : isInner kind)
    (whenTrue : ∀ rest, rest.length < tokens.length → sequel.Carries same needs first first' rest)
    (whenFalse : (headToken (sequel.alone tokens)).kind ≠ kind →
      sequel.Carries same needs second second' tokens) :
    sequel.Carries same needs (Tree.accept kind >>= fun found => if found then first else second)
      (Tree.accept kind >>= fun found => if found then first' else second') tokens := by
  cases tokens with
  | nil =>
      refine of_idle (List.forall_mem_nil _) ?_ (fun needed => ?_)
        (whenFalse (sequel.head_alone_ne inner))
      · simp [sequel.head_alone_ne inner]
      · simp [joined, ne_of_stops (stops needed).head inner]
  | cons token rest =>
      exact accept_cons (ne_endOfFile_of_isInner inner) (.inr (flat_of_isInner inner))
        (fun _ => whenTrue rest (Nat.lt_succ_self _)) whenFalse

/-- Consume a token of some kind if there is one. -/
theorem skip {goOn goOn' : Parser α} (stops : needs → sequel.Stops) (inner : isInner kind)
    (goesOn : ∀ rest, rest.length ≤ tokens.length → sequel.Carries same needs goOn goOn' rest) :
    sequel.Carries same needs (Tree.accept kind >>= fun _ => goOn)
      (Tree.accept kind >>= fun _ => goOn') tokens := by
  simpa using accept stops inner (fun rest shorter => goesOn rest (Nat.le_of_lt shorter))
    fun _ => goesOn tokens (Nat.le_refl _)

theorem advance {goOn goOn' : Token → Parser α}
    (inner : isInner (headToken (sequel.alone tokens)).kind)
    (goesOn : ∀ token rest, rest.length < tokens.length →
      sequel.Carries same needs (goOn token) (goOn' token) rest) :
    sequel.Carries same needs (Tree.advance >>= goOn) (Tree.advance >>= goOn') tokens := by
  cases tokens with
  | nil => exact absurd rfl (sequel.head_alone_ne inner)
  | cons token rest =>
      exact advance_cons (ne_endOfFile_of_isInner inner) (.inr (flat_of_isInner inner))
        (goesOn token rest (Nat.lt_succ_self _))

theorem expect {expectation : Expectation} {goOn goOn' : Token → Parser α} (inner : isInner kind)
    (goesOn : ∀ token rest, rest.length < tokens.length →
      sequel.Carries same needs (goOn token) (goOn' token) rest) :
    sequel.Carries same needs (Tree.expect kind expectation >>= goOn)
      (Tree.expect kind expectation >>= goOn') tokens := by
  cases tokens with
  | nil => exact of_error (stuck_expect sequel inner (List.forall_mem_nil _))
  | cons token rest =>
      by_cases here : token.kind = kind
      · refine of_eq ?_ ?_ (advance (by rwa [← here] at inner) goesOn)
        · rw [run_bind, run_expect]
          exact congrArg (Except.bind · _) (if_pos here)
        · rw [run_bind, run_expect]
          exact congrArg (Except.bind · _) (if_pos here)
      · exact of_error (fails_bind (expect_fails _ here))

theorem expectClosing {delimiter : Delimiter} {opened : Location} {goOn goOn' : Parser α}
    (goesOn : ∀ rest, sequel.Carries same needs goOn goOn' rest) :
    sequel.Carries same needs (Tree.expectClosing delimiter opened >>= fun _ => goOn)
      (Tree.expectClosing delimiter opened >>= fun _ => goOn') tokens := by
  cases tokens with
  | nil => exact of_error (stuck_expectClosing sequel (List.forall_mem_nil _))
  | cons token rest =>
      by_cases here : token.kind = delimiter.closingKind
      · have inner : token.kind ≠ .endOfFile := by
          rw [here]
          cases delimiter <;> decide
        refine consume ?_ ?_ (.inr ?_) (goesOn rest)
        · rw [run_bind, run_expectClosing, alone, List.cons_append, headToken_cons, if_pos here,
            next_cons inner]
          rfl
        · rw [run_bind, run_expectClosing, joined, List.cons_append, headToken_cons, if_pos here,
            next_cons inner]
          rfl
        · rw [here]
          cases delimiter <;> rfl
      · exact of_error (fails_bind (expectClosing_fails _ here))

theorem acceptElse_cons {first first' second second' : Parser α} (here : token.kind = .elseWord)
    (goesOn : sequel.Carries same needs first first' rest) :
    sequel.Carries same needs (Tree.acceptElse >>= fun found => if found then first else second)
      (Tree.acceptElse >>= fun found => if found then first' else second') (token :: rest) := by
  have step (list : List Token) {one two : Parser α} :
      (Tree.acceptElse >>= fun found => if found then one else two) (token :: list) = one list := by
    have here' : (headToken (token :: list)).kind = .elseWord := here
    rw [run_bind, acceptElse_of_head here', next_cons (by simp [here])]
    rfl
  exact consume (step _) (step _) (.inr (by rw [here]; rfl)) goesOn

theorem acceptElse_ahead {first first' second second' : Parser α} {word : Token}
    (separates : token.kind = .statementEnd) (here : word.kind = .elseWord)
    (goesOn : sequel.Carries same needs first first' rest) :
    sequel.Carries same needs (Tree.acceptElse >>= fun found => if found then first else second)
      (Tree.acceptElse >>= fun found => if found then first' else second')
      (token :: word :: rest) := by
  have step (list : List Token) {one two : Parser α} :
      (Tree.acceptElse >>= fun found => if found then one else two) (token :: word :: list) =
        (Tree.advance >>= fun _ => one) (word :: list) := by
    have ahead : ElseAhead (token :: word :: list) := ⟨separates, here⟩
    rw [run_bind, acceptElse_of_ahead ahead, next_cons (by simp [separates])]
    rfl
  refine consume (step _) (step _) (.inr (by rw [separates]; rfl)) ?_
  exact advance_cons (by simp [here]) (.inr (by rw [here]; rfl)) goesOn

/-- An `else` after the end of a statement is not looked for among the other tokens. -/
theorem acceptElse {first first' second second' : Parser α} (stops : needs → sequel.Stops)
    (whenTrue : ∀ rest, rest.length < tokens.length → sequel.Carries same needs first first' rest)
    (whenFalse : sequel.Carries same needs second second' tokens) :
    sequel.Carries same needs (Tree.acceptElse >>= fun found => if found then first else second)
      (Tree.acceptElse >>= fun found => if found then first' else second') tokens := by
  have passed (list : List Token) (other : (headToken list).kind ≠ .elseWord)
      (notAhead : ¬ElseAhead list) {one two : Parser α} :
      (Tree.acceptElse >>= fun found => if found then one else two) list = two list := by
    rw [run_bind, acceptElse_of_not other notAhead]
    rfl
  -- An `else` can be the second token, so what follows matters also after a single token.
  match tokens with
  | [] =>
      exact of_idle (List.forall_mem_nil _) (passed _ (sequel.head_alone_ne rfl) sequel.not_ahead)
        (fun needed => passed _ (ne_of_stops (stops needed).head rfl) (stops needed).ahead)
        whenFalse
  | [token] =>
      by_cases here : token.kind = .elseWord
      · exact acceptElse_cons here (whenTrue [] (Nat.lt_succ_self _))
      by_cases separates : token.kind = .statementEnd
      · refine of_idle (List.forall_mem_singleton.mpr separates)
          (passed (token :: sequel.ending) here fun ahead => ?_)
          (fun needed => passed (token :: sequel.others) here fun ahead => ?_) whenFalse
        · exact sequel.head_alone_ne rfl (headToken_tail_kind ahead.2 here)
        · exact ne_of_stops (stops needed).head rfl (headToken_tail_kind ahead.2 here)
      · have other (list : List Token) : ¬ElseAhead (token :: list) :=
          fun ahead => separates ahead.1
        exact of_eq (passed (token :: _) here (other _)) (passed (token :: _) here (other _))
          whenFalse
  | token :: second :: rest =>
      by_cases here : token.kind = .elseWord
      · exact acceptElse_cons here (whenTrue (second :: rest) (Nat.lt_succ_self _))
      by_cases ahead : token.kind = .statementEnd ∧ second.kind = .elseWord
      · refine acceptElse_ahead ahead.1 ahead.2 (whenTrue rest ?_)
        simp only [List.length_cons]
        omega
      · have other (list : List Token) : ¬ElseAhead (token :: second :: list) := ahead
        exact of_eq (passed (token :: second :: _) here (other _))
          (passed (token :: second :: _) here (other _)) whenFalse

/-- Where there is no first token to consume, a parser that consumes one fails. -/
theorem stuck {parser parser' : Parser α} (carries : sequel.Carries same needs parser parser' [])
    (first : TakesFirst parser (sequel.alone [])) :
    ∃ defect, parser (sequel.alone []) = .error defect := by
  cases found : parser (sequel.alone []) with
  | error defect => exact ⟨defect, rfl⟩
  | ok result =>
      obtain ⟨used, later, split, left, -⟩ := carries result found
      have shorter := (first result found).length_lt
      rw [left, alone, alone, List.length_append, List.length_append] at shorter
      have := congrArg List.length split
      simp only [List.length_append, List.length_nil] at this shorter
      omega

end Sequel.Carries

/-! ## Statements of a block -/

/-- Whenever a parser succeeds on tokens up to their end, it stops where a statement or the file
ends, or another one does the same with the other tokens in the place of the end. -/
def Sequel.CarriesUpTo (sequel : Sequel) {α : Type} (parser parser' : Parser α)
    (tokens : List Token) : Prop :=
  Returns (parser (sequel.alone tokens)) fun result =>
    endsToplevel (headToken result.2).kind ∨ ∃ used later, tokens = used ++ later ∧
      result.2 = sequel.alone later ∧
      parser' (sequel.joined tokens) = .ok (result.1, sequel.joined later)

namespace Sequel.CarriesUpTo

variable {sequel : Sequel} {α β : Type} {tokens rest : List Token} {token : Token}

theorem pure (result : α) : sequel.CarriesUpTo (Pure.pure result) (Pure.pure result) tokens :=
  .ok (.inr ⟨[], tokens, rfl, rfl, rfl⟩)

/-- Both parsers consume the token in front. -/
theorem consume {parser parser' goOn goOn' : Parser α}
    (run : parser (sequel.alone (token :: rest)) = goOn (sequel.alone rest))
    (run' : parser' (sequel.joined (token :: rest)) = goOn' (sequel.joined rest))
    (goesOn : sequel.CarriesUpTo goOn goOn' rest) :
    sequel.CarriesUpTo parser parser' (token :: rest) := by
  intro result found
  refine (goesOn result (run ▸ found)).imp_right ?_
  rintro ⟨used, later, rfl, left, carry⟩
  exact ⟨token :: used, later, rfl, left, run'.trans carry⟩

theorem map {parser parser' : Parser α} {build : α → β}
    (carries : sequel.CarriesUpTo parser parser' tokens) :
    sequel.CarriesUpTo (parser >>= fun result => Pure.pure (build result))
      (parser' >>= fun result => Pure.pure (build result)) tokens := by
  rw [CarriesUpTo, run_bind]
  refine Returns.bind carries ?_
  rintro ⟨value, remaining⟩ (ends | ⟨used, later, rfl, rfl, carry⟩)
  · exact .ok (.inl ends)
  · exact .ok (.inr ⟨used, later, rfl, rfl, by rw [run_bind, carry]; rfl⟩)

/-- Some tokens come last, the others are read. -/
theorem unless_cons {condition : Kind → Prop} [DecidablePred condition] {result : α}
    {parser parser' : Parser α} (goesOn : sequel.CarriesUpTo parser parser' (token :: rest)) :
    sequel.CarriesUpTo
      (peekKind >>= fun kind => if condition kind then Pure.pure result else parser)
      (peekKind >>= fun kind => if condition kind then Pure.pure result else parser')
      (token :: rest) := by
  change sequel.CarriesUpTo (if condition token.kind then Pure.pure result else parser)
    (if condition token.kind then Pure.pure result else parser') (token :: rest)
  split
  · exact pure result
  · exact goesOn

theorem expect_cons {kind : Kind} {expectation : Expectation} {goOn goOn' : Parser α}
    (inner : kind ≠ .endOfFile) (goesOn : sequel.CarriesUpTo goOn goOn' rest) :
    sequel.CarriesUpTo (Tree.expect kind expectation >>= fun _ => goOn)
      (Tree.expect kind expectation >>= fun _ => goOn') (token :: rest) := by
  by_cases here : token.kind = kind
  · have step (list : List Token) (parser : Parser α) :
        (Tree.expect kind expectation >>= fun _ => parser) (token :: list) = parser list := by
      rw [run_bind, run_expect, headToken_cons, if_pos here, run_advance_eq,
        next_cons (by rwa [here])]
      rfl
    exact consume (step ..) (step ..) goesOn
  · exact Returns.expect fun here' => absurd here' here

/-- What follows may ask for more than ends of statements, where it stops anyway. -/
theorem bind {needs : Prop} {parser parser' : Parser α} {goOn goOn' : α → Parser β}
    (carries : sequel.Carries True needs parser parser' tokens)
    (stays : ∀ result later, later.length ≤ tokens.length → Idle later →
      Returns (goOn result (sequel.alone later)) fun result =>
        endsToplevel (headToken result.2).kind)
    (goesOn : ∀ result later, later.length ≤ tokens.length → ¬Idle later →
      sequel.CarriesUpTo (goOn result) (goOn' result) later) :
    sequel.CarriesUpTo (parser >>= goOn) (parser' >>= goOn') tokens := by
  rw [CarriesUpTo, run_bind]
  refine Returns.bind carries ?_
  rintro ⟨value, remaining⟩ ⟨used, left, rfl, rfl, carry⟩
  by_cases idle : Idle left
  · exact fun result found => .inl (stays value left (by simp) idle result found)
  · intro last two
    refine (goesOn value left (by simp) idle last two).imp_right ?_
    rintro ⟨further, later, rfl, rest, carryOn⟩
    refine ⟨used ++ further, later, by simp, rest, ?_⟩
    rw [run_bind, carry (fun none => absurd none idle) (.inl trivial)]
    exact carryOn

/-- What comes after asks for a token that ends no statement. -/
theorem thenExpect {needs : Prop} {kind : Kind} {expectation : Expectation}
    {parser parser' : Parser α} {goOn goOn' : α → Token → Parser β} (inner : isInner kind)
    (carries : sequel.CarriesUpTo parser parser' tokens)
    (goesOn : ∀ result token later, sequel.Carries True needs (goOn result token)
      (goOn' result token) later) :
    sequel.Carries True needs (parser >>= fun result => expect kind expectation >>= goOn result)
      (parser' >>= fun result => expect kind expectation >>= goOn' result) tokens := by
  rw [Carries, run_bind]
  refine Returns.bind carries ?_
  rintro ⟨value, remaining⟩ (ends | ⟨used, left, rfl, rfl, carry⟩)
  · refine Returns.expect fun here => ?_
    exact absurd here (ne_of_stops (stops_of_ends ends) inner)
  · have carries : sequel.Carries True needs (expect kind expectation >>= goOn value)
        (expect kind expectation >>= goOn' value) left :=
      .expect inner fun token later _ => goesOn value token later
    intro last two
    obtain ⟨further, later, rfl, rest, carryOn⟩ := carries last two
    refine ⟨used ++ further, later, by simp, rest, fun idle _ => ?_⟩
    rw [run_bind, carry]
    exact carryOn idle (.inl trivial)

/-- Ends of statements are skipped up to another token. -/
theorem skipSeparators {goOn goOn' : Parser α}
    (stays : ∀ list, (headToken list).kind = .endOfFile →
      Returns (goOn list) fun result => endsToplevel (headToken result.2).kind)
    (goesOn : ∀ token rest, (token :: rest).length ≤ tokens.length →
      sequel.CarriesUpTo goOn goOn' (token :: rest)) :
    sequel.CarriesUpTo (Tree.skipSeparators >>= fun _ => goOn)
      (Tree.skipSeparators >>= fun _ => goOn') tokens := by
  induction tokens with
  | nil =>
      rw [CarriesUpTo, run_bind, run_skipSeparators]
      exact fun result found => .inl (stays _ sequel.head_skip result found)
  | cons token rest ih =>
      by_cases separates : token.kind = .statementEnd
      · have step (list : List Token) (parser : Parser α) :
            (Tree.skipSeparators >>= fun _ => parser) (token :: list) =
              (Tree.skipSeparators >>= fun _ => parser) list := by
          simp [Tree.skipSeparators, separates]
        exact consume (step ..) (step ..)
          (ih fun token later shorter => goesOn token later (Nat.le_succ_of_le shorter))
      · have step (list : List Token) (parser : Parser α) :
            (Tree.skipSeparators >>= fun _ => parser) (token :: list) = parser (token :: list) := by
          simp [Tree.skipSeparators, separates]
        have here := goesOn token rest (Nat.le_refl _)
        rwa [CarriesUpTo, alone, joined, List.cons_append, List.cons_append, step, step]

end Sequel.CarriesUpTo

/-! ## Bindings -/

/-- No tuple is bound by what comes after a statement. -/
theorem bindsTuple_of_ends {tokens : List Token} (ends : endsToplevel (headToken tokens).kind)
    (depth : Nat) : bindsTuple depth tokens = false := by
  cases tokens with
  | nil => rfl
  | cons token rest =>
      rw [headToken_cons] at ends
      unfold bindsTuple
      generalize token.kind = kind at ends
      cases kind <;> first | rfl | cases ends

theorem startsBinding_of_ends {tokens : List Token} (ends : endsToplevel (headToken tokens).kind) :
    startsBinding tokens = false := by
  unfold startsBinding
  generalize (headToken tokens).kind = kind at ends
  cases kind <;> first | rfl | cases ends

theorem quiet_of_stops {kind : Kind} (stop : stops kind) :
    isBindingOperator kind = false ∧ updateOperator? kind = none := by
  cases kind <;> first | exact ⟨rfl, rfl⟩ | cases stop

/-- A name binds nothing before what stops an expression. -/
theorem quiet_second {token : Token} {rest : List Token} (isName : token.kind = .identifier)
    (stop : stops (headToken rest).kind) :
    isBindingOperator (secondKind (token :: rest)) = false ∧
      updateOperator? (secondKind (token :: rest)) = none := by
  cases rest with
  | nil => simp [secondKind, isName, isBindingOperator, updateOperator?]
  | cons second rest => exact quiet_of_stops stop

/-- Where a bracket is closed, what comes after it decides whether a tuple is bound. -/
theorem bindsTuple_append {depth : Nat} {used rest rest' : List Token} (inside : depth ≠ 0)
    (closed : (used.map Token.kind).foldl Layout.depthAfter depth = 0)
    (ends : isBindingOperator (headToken rest).kind = isBindingOperator (headToken rest').kind) :
    bindsTuple depth (used ++ rest) = bindsTuple depth (used ++ rest') := by
  induction used generalizing depth with
  | nil => exact absurd closed inside
  | cons token used ih =>
      rw [List.map_cons, List.foldl_cons] at closed
      cases kind : token.kind with
      | leftParen =>
          rw [kind] at closed
          simpa [bindsTuple, kind] using ih (Nat.succ_ne_zero depth) closed
      | rightParen =>
          rw [kind] at closed
          by_cases last : depth ≤ 1
          · cases used with
            | nil => simpa [bindsTuple, kind, last] using ends
            | cons second used => simp [bindsTuple, kind, last]
          · have later := @ih (depth - 1) (by omega) closed
            simpa [bindsTuple, kind, last] using later
      | identifier | comma =>
          rw [kind] at closed
          simpa [bindsTuple, kind] using ih inside closed
      | _ => simp [bindsTuple, kind]

/-- A binding operator among the tokens is found whatever comes after them. -/
theorem bindsTuple_joined (sequel : Sequel) {depth : Nat} {tokens : List Token}
    (binds : bindsTuple depth (sequel.alone tokens)) : bindsTuple depth (sequel.joined tokens) := by
  induction tokens generalizing depth with
  | nil => cases (bindsTuple_of_ends sequel.ends depth).symm.trans binds
  | cons token rest ih =>
      rw [Sequel.alone, List.cons_append, bindsTuple] at binds
      rw [Sequel.joined, List.cons_append, bindsTuple]
      cases kind : token.kind with
      | leftParen | identifier | comma =>
          rw [kind] at binds
          exact ih binds
      | rightParen =>
          rw [kind] at binds
          by_cases last : depth ≤ 1
          · cases rest with
            | nil =>
                have quiet := (quiet_of_stops (stops_of_ends sequel.ends)).1
                simp [last, quiet] at binds
            | cons second rest => simpa [last] using binds
          · simp only [if_neg last] at binds ⊢
            exact ih binds
      | _ =>
          rw [kind] at binds
          cases binds

theorem startsBinding_joined (sequel : Sequel) {tokens : List Token}
    (binds : startsBinding (sequel.alone tokens)) : startsBinding (sequel.joined tokens) := by
  cases tokens with
  | nil => cases (startsBinding_of_ends sequel.ends).symm.trans binds
  | cons token rest =>
      rw [startsBinding, Sequel.alone, List.cons_append, headToken_cons] at binds
      rw [startsBinding, Sequel.joined, List.cons_append, headToken_cons]
      cases kind : token.kind with
      | identifier =>
          rw [kind] at binds
          cases rest with
          | nil => simp [quiet_second kind (stops_of_ends sequel.ends)] at binds
          | cons second rest => exact binds
      | leftParen =>
          rw [kind] at binds
          have bound : bindsTuple 0 (sequel.joined (token :: rest)) :=
            bindsTuple_joined sequel binds
          exact bound
      | _ =>
          rw [kind] at binds
          cases binds

/-- After the closing parenthesis of a tuple comes no binding operator in the place of the end of
file. -/
theorem bindsTuple_joined_eq (sequel : Sequel) {tokens later : List Token}
    (consumed : Consumed 1 (sequel.alone tokens) (sequel.alone later))
    (ends : later = [] → sequel.Stops) :
    bindsTuple 1 (sequel.joined tokens) = bindsTuple 1 (sequel.alone tokens) := by
  obtain ⟨used, split, -, closed⟩ := consumed.exists_append
  obtain rfl : tokens = used ++ later := by
    rw [Sequel.alone, Sequel.alone, ← List.append_assoc] at split
    exact List.append_cancel_right split
  have after : isBindingOperator (headToken (later ++ sequel.others)).kind =
      isBindingOperator (headToken (later ++ sequel.ending)).kind := by
    cases later with
    | nil =>
        rw [List.nil_append, List.nil_append, (quiet_of_stops (ends rfl).head).1,
          (quiet_of_stops (stops_of_ends sequel.ends)).1]
    | cons => rfl
  rw [Sequel.joined, Sequel.alone, List.append_assoc, List.append_assoc]
  exact bindsTuple_append Nat.one_ne_zero (closed 0) after

/-- What is no binding alone is none before other tokens either, if these cannot go on with it. -/
theorem not_startsBinding_joined (sequel : Sequel) {tokens later : List Token}
    (quiet : startsBinding (sequel.alone tokens) = false)
    (consumed : ConsumedFirst (sequel.alone tokens) (sequel.alone later))
    (ends : later = [] → sequel.Stops) : startsBinding (sequel.joined tokens) = false := by
  cases tokens with
  | nil =>
      have := consumed.length_lt
      simp only [Sequel.alone, List.length_append, List.length_nil] at this
      omega
  | cons token rest =>
      rw [startsBinding, Sequel.alone, List.cons_append, headToken_cons] at quiet
      rw [startsBinding, Sequel.joined, List.cons_append, headToken_cons]
      cases kind : token.kind with
      | identifier =>
          rw [kind] at quiet
          cases rest with
          | nil =>
              have nothing : later = [] := by
                have := consumed.length_lt
                simp only [Sequel.alone, List.length_append, List.length_cons, List.length_nil]
                  at this
                exact List.length_eq_zero_iff.mp (by omega)
              simp [quiet_second kind (ends nothing).head]
          | cons second rest => exact quiet
      | leftParen =>
          obtain ⟨depth, pass, consumed⟩ := consumed
          obtain rfl : depth = 1 := by
            simpa [Sequel.alone, kind, passes, Kind.isOpening] using pass
          rw [Sequel.alone, List.cons_append, next_cons (by simp [kind])] at consumed
          have same := bindsTuple_joined_eq sequel consumed ends
          rw [Sequel.joined, Sequel.alone] at same
          simpa [kind, bindsTuple, same] using quiet
      | _ => rfl

namespace Sequel

/-- A parser carries over to another one on fewer than `bound` tokens. -/
def CarriesWithin (sequel : Sequel) (bound : Nat) {α : Type} (needs : Prop)
    (parser parser' : Parser α) : Prop :=
  ∀ ⦃tokens⦄, tokens.length < bound → sequel.Carries True needs parser parser' tokens

/-- A rule for expressions carries over to another one on fewer than `bound` tokens, also from where
commas go on with arguments to where they do not. -/
def CarriesModes (sequel : Sequel) (bound : Nat) {α : Type} (rule rule' : Bool → Parser α) : Prop :=
  ∀ ⦃commas commas' : Bool⦄ ⦃tokens⦄, (commas' → commas) → tokens.length < bound →
    sequel.Carries (commas = commas') sequel.Stops (rule commas) (rule' commas') tokens

/-- A rule for expressions with one way to take commas. -/
theorem CarriesModes.within {sequel : Sequel} {bound : Nat} {α : Type}
    {rule rule' : Bool → Parser α} (carries : sequel.CarriesModes bound rule rule')
    (commas : Bool) {same needs : Prop} (stops : needs → sequel.Stops) {tokens : List Token}
    (short : tokens.length < bound) :
    sequel.Carries same needs (rule commas) (rule' commas) tokens :=
  (carries id short).mono (fun _ => rfl) stops

end Sequel

end Offside.Tree
