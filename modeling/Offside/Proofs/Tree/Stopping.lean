import Offside.Proofs.Tree.Consumption
import Offside.Proofs.Tree.Correspondence

/-!
# Where parsing stops

A rule of the grammar that succeeds has consumed tokens that close the brackets and the blocks among
them, and most rules end with a token that asks for nothing more. One that fails has passed over
tokens to the one at fault, which may stand inside of some blocks. Only the end of file is ever
taken for a missing end of a block, and only inside of one.

Another list whose tokens correspond is parsed alike. On the way a rule asks the rules below it
about shorter lists only, once it has consumed a token. So its answer is the same whatever the rules
are at the bottom, as long as there are more levels than tokens. The rules are followed level by
level, each in terms of the rules below it.
-/

namespace Offside.Tree

open Token (Kind)

/-! ## Outcomes -/

/-- The expectations of a token other than the end of a block or of the file. -/
def Expectation.isInner : Expectation → Bool
  | .endOfBlock | .endOfFile => false
  | _ => true

/-- Why parsing stops at a list of tokens inside of some blocks. -/
inductive Stuck (interpolate : List Token → Except Defect Node) (blocks : Nat)
    (tokens : List Token) : Defect → Prop where
  | unexpected (expectation : Expectation) : expectation.isInner →
      Stuck interpolate blocks tokens (.ofToken expectation (headToken tokens))
  | unclosed (delimiter : Delimiter) (opened : Location) :
      (headToken tokens).kind = .endOfFile →
      Stuck interpolate blocks tokens (.unclosed delimiter opened (headToken tokens))
  /-- A block is not closed before the end of file. -/
  | endOfBlock : (headToken tokens).kind = .endOfFile → 0 < blocks →
      Stuck interpolate blocks tokens (.ofToken .endOfBlock (headToken tokens))
  /-- An expression in a string literal does not parse. -/
  | interpolation {segments : List Segment} {defect : Defect} :
      (headToken tokens).kind = .string → (headToken tokens).payload = .segments segments →
      parseParts interpolate segments = .error defect → Stuck interpolate blocks tokens defect

theorem Stuck.add {interpolate : List Token → Except Defect Node} {blocks : Nat}
    {tokens : List Token} {defect : Defect} (stuck : Stuck interpolate blocks tokens defect)
    (further : Nat) : Stuck interpolate (blocks + further) tokens defect := by
  cases stuck with
  | unexpected expectation inner => exact .unexpected expectation inner
  | unclosed delimiter opened isEnd => exact .unclosed delimiter opened isEnd
  | endOfBlock isEnd inside => exact .endOfBlock isEnd (Nat.add_pos_left inside further)
  | interpolation isString payload failed => exact .interpolation isString payload failed

/-- What a parser does if tokens are planned: on success they are as planned, and a defect is one of
the place that is reached. -/
def Explained {α : Type} (interpolate : List Token → Except Defect Node) (plan : Plan)
    (tokens : List Token) : Except Defect (α × List Token) → Prop
  | .ok result => Crossed interpolate plan tokens result.2
  | .error defect => ∃ inside later, Passed interpolate plan.blocks tokens inside later ∧
      Stuck interpolate inside later defect

theorem Explained.cons {α : Type} {interpolate : List Token → Except Defect Node} {plan : Plan}
    {tokens : List Token} {outcome : Except Defect (α × List Token)}
    (admits : plan.admits (headToken tokens).kind) (other : (headToken tokens).kind ≠ .string)
    (explained : Explained interpolate (plan.after (headToken tokens).kind) (next tokens) outcome) :
    Explained interpolate plan tokens outcome := by
  cases outcome with
  | ok result => exact Crossed.cons admits (absurd · other) explained
  | error defect =>
      obtain ⟨inside, later, passed, stuck⟩ := explained
      exact ⟨inside, later, .cons (Bool.and_eq_true_iff.mp admits).1 (absurd · other) passed, stuck⟩

/-! ## Answers that correspond -/

namespace Correspondence

/-- Two parsers give answers that correspond to a list shorter than `count` and any list like it,
and the tokens explain the first one's. -/
def Runs {α : Type} (c : Correspondence) (count : Nat) (plan : Plan) (change : α → α)
    (parser parser' : Parser α) (tokens : List Token) : Prop :=
  (∀ {tokens'}, c.Lists tokens tokens' → tokens.length < count →
    c.Agree change (parser tokens) (parser' tokens')) ∧
  Explained c.interpolate plan tokens (parser tokens)

theorem length_next {count inner : Nat} {tokens : List Token} (short : tokens.length < count)
    (le : count ≤ inner + 1) (other : (headToken tokens).kind ≠ .endOfFile) :
    (next tokens).length < inner := by
  cases tokens with
  | nil => exact absurd rfl other
  | cons token rest =>
      rw [headToken_cons] at other
      rw [next_cons other]
      exact Nat.lt_of_succ_lt_succ (Nat.lt_of_lt_of_le short le)

namespace Runs

variable {c : Correspondence} {α β : Type} {count inner : Nat} {plan : Plan} {tokens : List Token}
variable {kind : Kind} {change : α → α} {change' : β → β}

/-- What a parser has consumed when it succeeds. -/
theorem crossed {parser parser' : Parser α} (runs : c.Runs count plan change parser parser' tokens)
    {result : α × List Token} (found : parser tokens = .ok result) :
    Crossed c.interpolate plan tokens result.2 := by
  have explained := runs.2
  rwa [found] at explained

theorem takes {parser parser' : Parser α}
    (runs : c.Runs count plan change parser parser' tokens) : Takes plan.brackets parser tokens :=
  fun _ found => (runs.crossed found).consumed

theorem first {parser parser' : Parser α}
    (runs : c.Runs count .whole change parser parser' tokens) : TakesFirst parser tokens :=
  fun _ found => (runs.crossed found).first

theorem pure {result result' : α} (same : result' = change result) (done : plan.isDone) :
    c.Runs count plan change (Pure.pure result) (Pure.pure result') tokens :=
  ⟨fun lists _ => ⟨same, lists⟩, .refl tokens done⟩

theorem fail {expectation : Expectation} (isInner : expectation.isInner) :
    c.Runs count plan change (Tree.fail expectation) (Tree.fail expectation) tokens :=
  ⟨fun lists _ => c.unexpected lists.head expectation, _, tokens, .refl _ tokens,
    .unexpected expectation isInner⟩

/-- What follows has a shorter list, and how it must end depends on how the first parser ends. -/
theorem bind_of {parser parser' : Parser α} {goOn goOn' : α → Parser β} {blocks brackets : Nat}
    {first second whole : Finish}
    (before : c.Runs count ⟨0, 0, first⟩ change parser parser' tokens)
    (leads : first.leads second whole)
    (goesOn : ∀ result later, parser tokens = .ok (result, later) →
      c.Runs inner ⟨blocks, brackets, second⟩ change' (goOn result) (goOn' (change result)) later)
    (shorter : ∀ result, parser tokens = .ok result → tokens.length < count →
      result.2.length < inner) :
    c.Runs count ⟨blocks, brackets, whole⟩ change' (parser >>= goOn) (parser' >>= goOn')
      tokens := by
  obtain ⟨agree, explained⟩ := before
  refine ⟨fun lists short => Outcomes.bind (agree lists short) ?_, ?_⟩
  · rintro ⟨result, later⟩ ⟨_, later'⟩ found ⟨rfl, lists⟩
    exact (goesOn result later found).1 lists (shorter _ found short)
  rw [run_bind]
  cases found : parser tokens with
  | error defect =>
      rw [found] at explained
      obtain ⟨inside, later, passed, stuck⟩ := explained
      have passed := passed.add blocks
      rw [Nat.zero_add] at passed
      exact ⟨inside + blocks, later, passed, stuck.add blocks⟩
  | ok result =>
      rw [found] at explained
      have explained' := (goesOn result.1 result.2 found).2
      rw [ok_bind]
      cases last : goOn result.1 result.2 with
      | ok result' =>
          rw [last] at explained'
          exact Crossed.append explained explained' leads
      | error defect =>
          rw [last] at explained'
          obtain ⟨inside, later, passed, stuck⟩ := explained'
          have crossed := (Crossed.passed explained).add blocks
          rw [Nat.zero_add] at crossed
          exact ⟨inside, later, crossed.trans passed, stuck⟩

/-- What follows may depend on what the first parser returns. -/
theorem bindWith {parser parser' : Parser α} {goOn goOn' : α → Parser β} {first : Finish}
    (leads : first.leads plan.finish plan.finish)
    (before : c.Runs count ⟨0, 0, first⟩ change parser parser' tokens)
    (goesOn : ∀ result later, parser tokens = .ok (result, later) →
      c.Runs count plan change' (goOn result) (goOn' (change result)) later) :
    c.Runs count plan change' (parser >>= goOn) (parser' >>= goOn') tokens :=
  bind_of before leads goesOn fun _ found short =>
    Nat.lt_of_le_of_lt (before.crossed found).passed.suffix.length_le short

theorem bind {parser parser' : Parser α} {goOn goOn' : α → Parser β} {first : Finish}
    (leads : first.leads plan.finish plan.finish)
    (before : c.Runs count ⟨0, 0, first⟩ change parser parser' tokens)
    (goesOn : ∀ result later,
      c.Runs count plan change' (goOn result) (goOn' (change result)) later) :
    c.Runs count plan change' (parser >>= goOn) (parser' >>= goOn') tokens :=
  bindWith leads before fun result later _ => goesOn result later

/-- After what is complete nothing needs to follow. -/
theorem bindWhole {parser parser' : Parser α} {goOn goOn' : α → Parser β}
    (before : c.Runs count .whole change parser parser' tokens)
    (goesOn : ∀ result later, c.Runs count { plan with finish := plan.finish.relaxed } change'
      (goOn result) (goOn' (change result)) later) :
    c.Runs count plan change' (parser >>= goOn) (parser' >>= goOn') tokens :=
  bind_of before plan.finish.leads_relaxed (fun result later _ => goesOn result later)
    fun _ found short => Nat.lt_of_le_of_lt (before.crossed found).passed.suffix.length_le short

/-- A token has been consumed, so one level less is enough for what follows. -/
theorem bindFirst {parser parser' : Parser α} {goOn goOn' : α → Parser β}
    (before : c.Runs (count + 1) .whole change parser parser' tokens)
    (goesOn : ∀ result later, c.Runs count { plan with finish := plan.finish.relaxed } change'
      (goOn result) (goOn' (change result)) later) :
    c.Runs (count + 1) plan change' (parser >>= goOn) (parser' >>= goOn') tokens :=
  bind_of before plan.finish.leads_relaxed (fun result later _ => goesOn result later)
    fun _ found short => by
      have shorter := (before.crossed found).first.length_lt
      omega

theorem of_lt {parser parser' : Parser α}
    (runs : c.Runs (count + 1) plan change parser parser' tokens) :
    c.Runs count plan change parser parser' tokens :=
  ⟨fun lists short => runs.1 lists (Nat.lt_succ_of_lt short), runs.2⟩

theorem ite {condition : Prop} [Decidable condition] {first first' second second' : Parser α}
    (whenTrue : condition → c.Runs count plan change first first' tokens)
    (whenFalse : ¬condition → c.Runs count plan change second second' tokens) :
    c.Runs count plan change (if condition then first else second)
      (if condition then first' else second') tokens := by
  split
  · exact whenTrue ‹_›
  · exact whenFalse ‹_›

/-! ## Reading tokens -/

/-- The parsers need to correspond on the given list only, and on those like it. -/
theorem congr {parser parser' other other' : Parser α} (left : parser tokens = other tokens)
    (right : ∀ {tokens'}, c.Lists tokens tokens' → parser' tokens' = other' tokens')
    (runs : c.Runs count plan change other other' tokens) :
    c.Runs count plan change parser parser' tokens := by
  refine ⟨fun lists short => ?_, ?_⟩
  · rw [left, right lists]
    exact runs.1 lists short
  · rw [left]
    exact runs.2

/-- What the second parser sees is like the first token. -/
theorem of_moved {parser : Parser α} {parser' : Token → Parser α}
    (runs : ∀ token', Moved c.move (headToken tokens) token' →
      c.Runs count plan change parser (parser' token') tokens) :
    c.Runs count plan change parser (fun tokens' => parser' (headToken tokens') tokens')
      tokens := by
  refine ⟨fun lists => (runs _ lists.moved).1 lists, ?_⟩
  obtain ⟨token', moved⟩ := exists_moved c.move (headToken tokens)
  exact (runs token' moved).2

theorem peek {goOn goOn' : Token → Parser α}
    (goesOn : ∀ token', Moved c.move (headToken tokens) token' →
      c.Runs count plan change (goOn (headToken tokens)) (goOn' token') tokens) :
    c.Runs count plan change (Tree.peek >>= goOn) (Tree.peek >>= goOn') tokens :=
  of_moved goesOn

theorem peekKind {goOn goOn' : Kind → Parser α}
    (goesOn : c.Runs count plan change (goOn (headToken tokens).kind)
      (goOn' (headToken tokens).kind) tokens) :
    c.Runs count plan change (Tree.peekKind >>= goOn) (Tree.peekKind >>= goOn') tokens :=
  congr rfl (fun lists => by rw [run_bind, run_peekKind, ok_bind, lists.moved.kind]) goesOn

theorem get {goOn goOn' : List Token → Parser α}
    (same : ∀ {tokens'}, c.Lists tokens tokens' → goOn' tokens' = goOn' tokens)
    (goesOn : c.Runs count plan change (goOn tokens) (goOn' tokens) tokens) :
    c.Runs count plan change (MonadState.get >>= goOn) (MonadState.get >>= goOn') tokens :=
  congr rfl (fun lists => by rw [run_bind, run_get, ok_bind, same lists]) goesOn

/-- The first token is consumed. -/
theorem consume {parser parser' : Parser α} (here : (headToken tokens).kind = kind)
    (takes : plan.takes kind) (le : count ≤ inner + 1)
    (goesOn : c.Runs inner (plan.after kind) change parser parser' (next tokens)) :
    c.Runs count plan change (fun tokens => parser (next tokens))
      (fun tokens => parser' (next tokens)) tokens := by
  subst here
  obtain ⟨admits, other⟩ := Bool.and_eq_true_iff.mp takes
  have isEnd : (headToken tokens).kind ≠ .endOfFile := by
    intro isEnd
    rw [isEnd] at admits
    cases admits
  exact ⟨fun lists short => goesOn.1 lists.next (length_next short le isEnd),
    goesOn.2.cons admits (bne_iff_ne.mp other)⟩

theorem advance {goOn goOn' : Token → Parser α} (here : (headToken tokens).kind = kind)
    (takes : plan.takes kind) (le : count ≤ inner + 1)
    (goesOn : ∀ token', Moved c.move (headToken tokens) token' →
      c.Runs inner (plan.after kind) change (goOn (headToken tokens)) (goOn' token')
        (next tokens)) :
    c.Runs count plan change (Tree.advance >>= goOn) (Tree.advance >>= goOn') tokens :=
  of_moved fun token' moved => consume here takes le (goesOn token' moved)

theorem operator {goOn goOn' : Token → Parser α} (operates : Plan.operates (headToken tokens).kind)
    (le : count ≤ inner + 1)
    (goesOn : ∀ token', Moved c.move (headToken tokens) token' →
      c.Runs inner (plan.after .plus) change (goOn (headToken tokens)) (goOn' token')
        (next tokens)) :
    c.Runs count plan change (Tree.advance >>= goOn) (Tree.advance >>= goOn') tokens := by
  obtain ⟨takes, same⟩ := Plan.spec_of_operates operates plan
  exact advance rfl takes le (same ▸ goesOn)

theorem accept {first first' second second' : Parser α} (takes : plan.takes kind)
    (le : count ≤ inner + 1)
    (whenTrue : (headToken tokens).kind = kind →
      c.Runs inner (plan.after kind) change first first' (next tokens))
    (whenFalse : c.Runs count plan change second second' tokens) :
    c.Runs count plan change (Tree.accept kind >>= fun found => if found then first else second)
      (Tree.accept kind >>= fun found => if found then first' else second') tokens := by
  by_cases here : (headToken tokens).kind = kind
  · refine congr (by rw [run_bind, run_accept, if_pos here]; rfl) (fun lists => ?_)
      (consume here takes le (whenTrue here))
    rw [run_bind, run_accept, if_pos (lists.moved.kind.trans here)]
    rfl
  · refine congr (by rw [run_bind, run_accept, if_neg here]; rfl) (fun lists => ?_) whenFalse
    rw [run_bind, run_accept, if_neg (by rwa [lists.moved.kind])]
    rfl

/-- Consume a token of some kind if there is one. -/
theorem skip {goOn goOn' : Parser α} (takes : plan.takes kind) (stays : plan.after kind = plan)
    (goesOn : ∀ later, c.Runs count plan change goOn goOn' later) :
    c.Runs count plan change (Tree.accept kind >>= fun _ => goOn)
      (Tree.accept kind >>= fun _ => goOn') tokens := by
  have whenTrue (_ : (headToken tokens).kind = kind) :
      c.Runs count (plan.after kind) change goOn goOn' (next tokens) := by
    rw [stays]
    exact goesOn _
  simpa using accept takes (Nat.le_succ count) whenTrue (goesOn tokens)

theorem expect {expectation : Expectation} {goOn goOn' : Token → Parser α}
    (takes : plan.takes kind) (isInner : expectation.isInner) (le : count ≤ inner + 1)
    (goesOn : (headToken tokens).kind = kind → ∀ token', Moved c.move (headToken tokens) token' →
      c.Runs inner (plan.after kind) change (goOn (headToken tokens)) (goOn' token')
        (next tokens)) :
    c.Runs count plan change (Tree.expect kind expectation >>= goOn)
      (Tree.expect kind expectation >>= goOn') tokens := by
  by_cases here : (headToken tokens).kind = kind
  · refine congr (by rw [run_bind, run_expect, if_pos here]; rfl) (fun lists => ?_)
      (advance here takes le (goesOn here))
    rw [run_bind, run_expect, if_pos (lists.moved.kind.trans here)]
    rfl
  · refine congr (by rw [run_bind, run_expect, if_neg here]; rfl) (fun lists => ?_) (fail isInner)
    rw [run_bind, run_expect, if_neg (by rwa [lists.moved.kind])]
    rfl

/-- A block that is left open is left at the end of file. -/
theorem closeBlock {goOn goOn' : Parser α} (takes : plan.takes .blockEnd) (inside : 0 < plan.blocks)
    (ends : (headToken tokens).kind = .blockEnd ∨ (headToken tokens).kind = .endOfFile)
    (goesOn : c.Runs count (plan.after .blockEnd) change goOn goOn' (next tokens)) :
    c.Runs count plan change (Tree.expect .blockEnd .endOfBlock >>= fun _ => goOn)
      (Tree.expect .blockEnd .endOfBlock >>= fun _ => goOn') tokens := by
  by_cases closes : (headToken tokens).kind = .blockEnd
  · refine congr (by rw [run_bind, run_expect, if_pos closes]; rfl) (fun lists => ?_)
      (consume closes takes (Nat.le_succ count) goesOn)
    rw [run_bind, run_expect, if_pos (lists.moved.kind.trans closes)]
    rfl
  · refine ⟨fun lists _ => ?_, ?_⟩
    · rw [run_bind, run_bind, run_expect, run_expect, if_neg closes,
        if_neg (by rwa [lists.moved.kind])]
      exact c.unexpected lists.head .endOfBlock
    · rw [run_bind, run_expect, if_neg closes]
      exact ⟨_, tokens, .refl _ tokens, .endOfBlock (ends.resolve_left closes) inside⟩

theorem expectClosing {delimiter : Delimiter} {opened opened' : Location} {goOn goOn' : Parser α}
    (takes : plan.takes delimiter.closingKind) (same : opened' = c.move opened)
    (goesOn : c.Runs count (plan.after delimiter.closingKind) change goOn goOn' (next tokens)) :
    c.Runs count plan change (Tree.expectClosing delimiter opened >>= fun _ => goOn)
      (Tree.expectClosing delimiter opened' >>= fun _ => goOn') tokens := by
  subst same
  by_cases here : (headToken tokens).kind = delimiter.closingKind
  · refine congr (by rw [run_bind, run_expectClosing, if_pos here]; rfl) (fun lists => ?_)
      (consume here takes (Nat.le_succ count) goesOn)
    rw [run_bind, run_expectClosing, if_pos (lists.moved.kind.trans here)]
    rfl
  by_cases isEnd : (headToken tokens).kind = .endOfFile
  · refine ⟨fun lists _ => ?_, ?_⟩
    · simp only [run_bind, run_expectClosing, lists.moved.kind, if_neg here, if_pos isEnd]
      exact c.unclosed lists.head delimiter opened
    · rw [run_bind, run_expectClosing, if_neg here, if_pos isEnd]
      exact ⟨_, tokens, .refl _ tokens, .unclosed delimiter opened isEnd⟩
  · have inner : delimiter.expectation.isInner := by cases delimiter <;> rfl
    refine congr (by rw [run_bind, run_expectClosing, if_neg here, if_neg isEnd]; rfl)
      (fun lists => ?_) (fail inner)
    rw [run_bind, run_expectClosing, lists.moved.kind, if_neg here, if_neg isEnd]
    rfl

theorem separators (tokens : List Token) :
    c.Runs count .tail id skipSeparators skipSeparators tokens :=
  ⟨fun lists _ => ⟨rfl, lists.skip⟩, .skip tokens⟩

theorem acceptElse {first first' second second' : Parser α}
    (takes : plan.takes .elseWord ∧ plan.takes .statementEnd)
    (whenTrue : ∀ later, c.Runs count (plan.after .elseWord) change first first' later)
    (whenFalse : c.Runs count plan change second second' tokens) :
    c.Runs count plan change (Tree.acceptElse >>= fun found => if found then first else second)
      (Tree.acceptElse >>= fun found => if found then first' else second') tokens := by
  by_cases here : (headToken tokens).kind = .elseWord
  · refine congr (by rw [run_bind, acceptElse_of_head here]; rfl) (fun lists => ?_)
      (consume here takes.1 (Nat.le_succ count) (whenTrue _))
    rw [run_bind, acceptElse_of_head (lists.moved.kind.trans here)]
    rfl
  have ahead' {tokens' : List Token} (lists : c.Lists tokens tokens') :
      ElseAhead tokens' ↔ ElseAhead tokens := by
    rw [ElseAhead, ElseAhead, lists.second, lists.moved.kind]
  by_cases ahead : ElseAhead tokens
  · have same : (plan.after .statementEnd).after .elseWord = plan.after .elseWord := by
      obtain ⟨blocks, brackets, finish⟩ := plan
      cases finish <;> rfl
    refine congr (by rw [run_bind, acceptElse_of_ahead ahead]; rfl) (fun lists => ?_)
      (consume ahead.1 takes.2 (Nat.le_succ count)
        (consume ahead.next takes.1 (Nat.le_succ count) (same.symm ▸ whenTrue _)))
    rw [run_bind, acceptElse_of_ahead ((ahead' lists).mpr ahead)]
    rfl
  · refine congr (by rw [run_bind, acceptElse_of_not here ahead]; rfl) (fun lists => ?_) whenFalse
    rw [run_bind, acceptElse_of_not (by rwa [lists.moved.kind]) (mt (ahead' lists).mp ahead)]
    rfl

/-- A string literal is consumed if its expressions parse. -/
theorem literal {segments : List Segment} (isString : (headToken tokens).kind = .string)
    (payload : (headToken tokens).payload = .segments segments)
    {build build' : List (Part Node) → Node}
    (same : ∀ parts, build' (Node.relocateParts c.move parts) = (build parts).relocate c.move) :
    c.Runs count .whole (Node.relocate c.move)
      (do
        let _ ← Tree.advance
        let parts ← (parseParts c.interpolate segments : Except Defect (List (Part Node)))
        return build parts : Parser Node)
      (do
        let _ ← Tree.advance
        let parts ← (parseParts c.interpolate' (Segment.relocateAll c.move segments) :
          Except Defect (List (Part Node)))
        return build' parts : Parser Node) tokens := by
  refine ⟨fun lists _ => ?_, ?_⟩
  · have parsed := Outcomes.bind (c.literal lists.head segments payload)
      fun parts parts' _ (same : parts' = _) =>
        show c.Agree (Node.relocateParts c.move) (.ok (parts, next tokens)) (.ok (parts', _)) from
          ⟨same, lists.next⟩
    refine Outcomes.bind parsed ?_
    rintro ⟨parts, later⟩ ⟨_, later'⟩ - ⟨rfl, lists⟩
    exact ⟨same parts, lists⟩
  rw [run_bind, run_advance_eq, ok_bind, run_bind]
  cases parsed : parseParts c.interpolate segments with
  | error defect => exact ⟨0, tokens, .refl 0 tokens, .interpolation isString payload parsed⟩
  | ok parts =>
      refine Crossed.cons (by rw [isString]; rfl) (fun _ => ⟨segments, parts, payload, parsed⟩) ?_
      rw [isString]
      exact .refl _ rfl

/-- The end of file stays, so nothing is consumed at the end. -/
theorem expectEnd {expectation : Expectation}
    (fits : (headToken tokens).kind = .endOfFile ∨ expectation.isInner) (result : α)
    (done : plan.isDone) :
    c.Runs count plan change
      (do let _ ← Tree.expect .endOfFile expectation; return result : Parser α)
      (do let _ ← Tree.expect .endOfFile expectation; return change result) tokens := by
  by_cases isEnd : (headToken tokens).kind = .endOfFile
  · have stays (result : α) {tokens : List Token} (isEnd : (headToken tokens).kind = .endOfFile) :
        (do let _ ← Tree.expect .endOfFile expectation; return result : Parser α) tokens =
          (Pure.pure result : Parser α) tokens := by
      rw [run_bind, run_expect, if_pos isEnd, run_advance_eq, next, if_pos isEnd]
      rfl
    exact congr (stays result isEnd) (fun lists => stays _ (lists.moved.kind.trans isEnd))
      (pure rfl done)
  · refine congr (by rw [run_bind, run_expect, if_neg isEnd]; rfl) (fun lists => ?_)
      (fail (fits.resolve_left isEnd))
    rw [run_bind, run_expect, if_neg (by rwa [lists.moved.kind])]
    rfl

end Runs

end Correspondence

/-! ## Rules -/

/-- An interpolated expression, and nothing after it. -/
def parseInterpolated (level : Level) : Parser Node := do
  let node ← level.expression true
  let _ ← expect .endOfFile .closingBrace
  return node

namespace Correspondence

section

variable (c : Correspondence) (count : Nat)

/-- Rules for nodes that answer lists shorter than `count` alike. -/
abbrev Nodes (plan : Plan) (rule rule' : Parser Node) (tokens : List Token) : Prop :=
  c.Runs count plan (Node.relocate c.move) rule rule' tokens

/-- Rules for lists of nodes that answer lists shorter than `count` alike. -/
abbrev NodeLists (plan : Plan) (rule rule' : Parser (List Node)) (tokens : List Token) : Prop :=
  c.Runs count plan c.nodes rule rule' tokens

/-- The rules of two levels give answers that correspond to all lists shorter than `count`. -/
structure Levels (level level' : Level) : Prop where
  pattern tokens : c.Runs count .whole (Pattern.relocate c.move) level.pattern level'.pattern tokens
  patternTail tokens : c.Runs count .part (Prod.map c.patterns id) level.patternTail
    level'.patternTail tokens
  transparent tokens : Returns (level.pattern tokens) (Transparent tokens ·.2)
  transparentTail tokens : Returns (level.patternTail tokens) (Transparent tokens ·.2)
  parameters tokens : c.Runs count .tail c.patterns level.parameters level'.parameters tokens
  /-- The parameters end at an arrow. -/
  arrow tokens : Returns (level.parameters tokens) fun result =>
    (headToken result.2).kind = .thinArrow
  statements terminator tokens : c.NodeLists count .tail (level.statements terminator)
    (level'.statements terminator) tokens
  /-- The statements of a block end at its end or at the end of file. -/
  ends terminator tokens : Returns (level.statements terminator tokens) fun result =>
    (headToken result.2).kind = terminator ∨ (headToken result.2).kind = .endOfFile
  statement tokens : c.Nodes count .whole level.statement level'.statement tokens
  conditional statement commas {tokens : List Token} : (headToken tokens).kind = .ifWord →
    c.Nodes count .whole (level.conditional statement commas) (level'.conditional statement commas)
      tokens
  expression commas tokens :
    c.Nodes count .whole (level.expression commas) (level'.expression commas) tokens
  dotChain commas tokens :
    c.Nodes count .whole (level.dotChain commas) (level'.dotChain commas) tokens
  dotTail commas left tokens : c.Nodes count .tail (level.dotTail commas left)
    (level'.dotTail commas (left.relocate c.move)) tokens
  pipeTail commas left tokens : c.Nodes count .tail (level.pipeTail commas left)
    (level'.pipeTail commas (left.relocate c.move)) tokens
  application commas tokens :
    c.Nodes count .whole (level.application commas) (level'.application commas) tokens
  arguments commas tokens :
    c.NodeLists count .tail (level.arguments commas) (level'.arguments commas) tokens
  juxtaposed commas tokens :
    c.NodeLists count .tail (level.juxtaposed commas) (level'.juxtaposed commas) tokens
  commaArguments tokens : c.NodeLists count .tail level.commaArguments level'.commaArguments tokens
  binary commas minimum tokens :
    c.Nodes count .whole (level.binary commas minimum) (level'.binary commas minimum) tokens
  binaryTail commas minimum left tokens : c.Nodes count .tail (level.binaryTail commas minimum left)
    (level'.binaryTail commas minimum (left.relocate c.move)) tokens
  unary commas tokens : c.Nodes count .whole (level.unary commas) (level'.unary commas) tokens
  postfixTail commas callee tokens : c.Nodes count .tail (level.postfixTail commas callee)
    (level'.postfixTail commas (callee.relocate c.move)) tokens
  tupleTail tokens : c.NodeLists count .part level.tupleTail level'.tupleTail tokens
  listElements tokens : c.NodeLists count .part level.listElements level'.listElements tokens

end

namespace Levels

variable {c : Correspondence} {count : Nat} {below below' : Level}
variable (levels : c.Levels count below below') (tokens : List Token)

include levels

/-! ## Patterns -/

theorem parsePatternTail : c.Runs (count + 1) .part (Prod.map c.patterns id)
    (Tree.parsePatternTail below) (Tree.parsePatternTail below') tokens :=
  .accept rfl (Nat.le_refl _) (fun _ => .peekKind (.ite (fun _ => .pure rfl rfl) fun _ =>
    .bind rfl (levels.pattern _) fun _ _ => .bind rfl (levels.patternTail _) fun _ _ =>
      .pure rfl rfl)) (.pure rfl rfl)

theorem parsePattern : c.Runs (count + 1) .whole (Pattern.relocate c.move)
    (Tree.parsePattern below) (Tree.parsePattern below') tokens := by
  refine .peek fun token' moved => .accept rfl (Nat.le_refl _) (fun isName => .pure ?_ rfl)
    (.accept rfl (Nat.le_refl _) (fun isParen => ?_) (.fail rfl))
  · rw [Pattern.relocate, moved.word isName, moved.location (by simp [isName])]
  have same := moved.location (by simp [isParen])
  refine .bind rfl (levels.pattern _) fun first _ => .bind rfl (levels.patternTail _) ?_
  rintro ⟨rest, isTuple⟩ _
  refine .expectClosing rfl same (.pure ?_ rfl)
  cases isTuple <;> simp [Pattern.relocate, same]

theorem transparent_parsePatternTail :
    Returns (Tree.parsePatternTail below tokens) (Transparent tokens ·.2) := by
  refine .accept (fun isComma => ?_) fun _ => .ok fun _ => rfl
  have step (depth : Nat) := bindsTuple_next (.inr isComma) (depth + 1)
  rw [run_bind, run_peekKind, ok_bind, run_ite]
  split
  · exact .ok step
  · refine (levels.transparent _).bind fun pattern inside => ?_
    refine (levels.transparentTail _).bind fun rest further => .ok fun depth => ?_
    rw [step, inside, further]

/-- A pattern is a name, or it lies between parentheses that bind it if a binding operator
follows. -/
theorem spec_parsePattern : Returns (Tree.parsePattern below tokens) fun result =>
    ((headToken tokens).kind = .identifier ∧ result.2 = Tree.next tokens) ∨
      ((headToken tokens).kind = .leftParen ∧ ∃ later, Transparent (Tree.next tokens) later ∧
        (headToken later).kind = .rightParen ∧ result.2 = Tree.next later) := by
  refine .accept (fun isName => .ok (.inl ⟨isName, rfl⟩)) fun _ =>
    .accept (fun isParen => ?_) fun _ => .error _
  refine (levels.transparent _).bind fun first inside => ?_
  refine (levels.transparentTail _).bind fun tail further => ?_
  refine .expectClosing fun closes => .ok (.inr ⟨isParen, tail.2, ?_, closes, rfl⟩)
  exact fun depth => (inside depth).trans (further depth)

theorem transparent_parsePattern :
    Returns (Tree.parsePattern below tokens) (Transparent tokens ·.2) := by
  intro result found depth
  rcases levels.spec_parsePattern tokens result found with
    ⟨isName, rest⟩ | ⟨opens, later, inside, closes, rest⟩
  · rw [rest, bindsTuple_next (.inl isName)]
  · rw [rest, bindsTuple_open opens, inside, bindsTuple_close closes]

theorem parseParameters : c.Runs (count + 1) .tail c.patterns (Tree.parseParameters below)
    (Tree.parseParameters below') tokens :=
  .peekKind (.ite (fun _ => .pure rfl rfl) fun _ => .bindFirst (levels.parsePattern _) fun _ _ =>
    .bind rfl (levels.parameters _) fun _ _ => .pure rfl rfl)

theorem arrow_parseParameters : Returns (Tree.parseParameters below tokens) fun result =>
    (headToken result.2).kind = .thinArrow := by
  rw [Tree.parseParameters, run_bind, run_peekKind, ok_bind, run_ite]
  split
  case isTrue here => exact .ok here
  case isFalse =>
    refine Returns.bind (levels.parsePattern tokens).takes fun pattern _ => ?_
    exact (levels.arrow pattern.2).bind fun rest here => .ok here

/-! ## Blocks and clauses -/

theorem parseBlock : c.Runs count .whole (Node.relocateBlock c.move) (Tree.parseBlock below)
    (Tree.parseBlock below') tokens := by
  refine .expect rfl rfl (Nat.le_succ _) fun isStart token' moved =>
    .bindWith rfl (levels.statements .blockEnd _) fun _ _ found =>
      .closeBlock rfl Nat.one_pos (levels.ends _ _ _ found) (.pure ?_ rfl)
  simp [Node.relocateBlock, moved.location (by simp [isStart])]

theorem parseClauseBody : c.Runs count .whole (Node.relocateBlock c.move)
    (Tree.parseClauseBody below) (Tree.parseClauseBody below') tokens :=
  .peekKind (.ite (fun _ => levels.parseBlock tokens) fun _ =>
    .bindWhole (levels.statement _) fun _ _ => .pure (by simp [Node.relocateBlock]) rfl)

/-! ## Bindings and conditionals -/

variable {tokens}

/-- A binding operator follows the pattern of a binding. -/
theorem operator_parsePattern (binds : startsBinding tokens)
    (other : (headToken tokens).kind ≠ .identifier ∨ updateOperator? (secondKind tokens) = none) :
    Returns (Tree.parsePattern below tokens) fun result =>
      isBindingOperator (headToken result.2).kind := by
  intro result found
  rcases levels.spec_parsePattern tokens result found with
    ⟨isName, rest⟩ | ⟨opens, later, inside, closes, rest⟩
  · have operator : isBindingOperator (secondKind tokens) := by
      simpa [startsBinding, isName, other.resolve_left (not_not_intro isName)] using binds
    rw [rest, next_of_kind isName (by decide)]
    rwa [headToken_tail_kind rfl]
    intro same
    rw [← same, isName] at operator
    cases operator
  · rw [rest, ← bindsTuple_last closes, ← inside 0, ← bindsTuple_open opens]
    simpa [startsBinding, opens] using binds

theorem parseBinding (binds : startsBinding tokens) : c.Nodes (count + 1) .whole
    (Tree.parseBinding below) (Tree.parseBinding below') tokens := by
  rcases update_or_pattern tokens with ⟨operator, isName, found, second⟩ | other
  · refine .congr (parseBinding_of_update below isName found) (fun lists =>
      parseBinding_of_update below' (lists.moved.kind.trans isName) (lists.second ▸ found))
      (.advance isName rfl (Nat.le_refl _) fun token' moved =>
        .operator ?_ (Nat.le_succ _) fun _ _ =>
          .bindWhole (levels.expression _ _) fun _ _ => .pure ?_ rfl)
    · simp [Plan.operates, second, found]
    · rw [Node.relocate, moved.word isName, moved.location (by simp [isName])]
  · refine .congr (parseBinding_of_pattern below other) (fun lists =>
      parseBinding_of_pattern below' (by rwa [lists.moved.kind, lists.second]))
      (.bindWith rfl (levels.parsePattern tokens) fun pattern later found => ?_)
    have operator := levels.operator_parsePattern binds other _ found
    exact .operator (by simp_all [Plan.operates]) (Nat.le_refl _) fun token' moved =>
      .bindWhole (levels.expression _ _) fun _ _ =>
        .pure (by simp [Node.relocate, moved.kind]) rfl

theorem parseBranch (statement commas : Bool) : c.Nodes count .whole
    (Tree.parseBranch below statement commas) (Tree.parseBranch below' statement commas)
    tokens := by
  refine .get (fun lists => by simp only [lists.moved.kind, lists.startsBinding])
    (.ite (fun _ => ?_) fun _ => .ite (fun isIf => ?_) fun _ => .ite (fun binds => ?_) fun _ => ?_)
  · exact .bindWhole (levels.parseBlock _) fun _ _ => .pure rfl rfl
  · exact levels.conditional true commas (by simpa using (Bool.and_eq_true_iff.mp isIf).2)
  · exact (levels.parseBinding (Bool.and_eq_true_iff.mp binds).2).of_lt
  · exact levels.application commas tokens

/-- The clause after a colon. -/
theorem clause (isColon : (headToken tokens).kind = .colon) :
    c.Nodes count .whole
      (do
        let _ ← Tree.advance
        let block ← Tree.parseClauseBody below
        return Node.block block : Parser Node)
      (do
        let _ ← Tree.advance
        let block ← Tree.parseClauseBody below'
        return Node.block block : Parser Node) tokens :=
  .advance isColon rfl (Nat.le_succ _) fun _ _ =>
    .bindWhole (levels.parseClauseBody _) fun _ _ => .pure rfl rfl

theorem parseThen (statement commas : Bool) : c.Nodes count .whole
    (Tree.parseThen below statement commas) (Tree.parseThen below' statement commas) tokens :=
  .peekKind (.ite
    (fun isColon => levels.clause (by simpa using (Bool.and_eq_true_iff.mp isColon).2))
    fun _ => .expect rfl rfl (Nat.le_succ _) fun _ _ _ => levels.parseBranch statement commas)

theorem parseElse (statement commas : Bool) : c.Nodes count .whole
    (Tree.parseElse below statement commas) (Tree.parseElse below' statement commas) tokens :=
  .peekKind (.ite (levels.conditional statement commas) fun _ =>
    .ite (fun isColon => levels.clause (by simpa using (Bool.and_eq_true_iff.mp isColon).2))
      fun _ => levels.parseBranch statement commas)

theorem parseConditional (statement commas : Bool) (isIf : (headToken tokens).kind = .ifWord) :
    c.Nodes (count + 1) .whole (Tree.parseConditional below statement commas)
      (Tree.parseConditional below' statement commas) tokens := by
  rw [parseConditional_eq, parseConditional_eq]
  refine .advance isIf rfl (Nat.le_refl _) fun token' moved => ?_
  rw [moved.location (by simp [isIf])]
  exact .bind rfl (levels.expression _ _) fun _ _ =>
    .bind rfl (levels.parseThen statement commas) fun _ _ => .acceptElse ⟨rfl, rfl⟩
      (fun _ => .bindWhole (levels.parseElse statement commas) fun _ _ => .pure rfl rfl)
      (.pure rfl rfl)

/-! ## Primary expressions -/

variable (tokens)

theorem parseTupleTail : c.NodeLists (count + 1) .part (Tree.parseTupleTail below)
    (Tree.parseTupleTail below') tokens :=
  .accept rfl (Nat.le_refl _) (fun _ => .peekKind (.ite (fun _ => .pure rfl rfl) fun _ =>
    .bind rfl (levels.expression _ _) fun _ _ => .bind rfl (levels.tupleTail _) fun _ _ =>
      .pure rfl rfl)) (.pure rfl rfl)

theorem parseGrouped (opened : Location) : c.Nodes count ⟨0, 1, .completed⟩
    (Tree.parseGrouped below opened) (Tree.parseGrouped below' (c.move opened)) tokens := by
  refine .accept rfl (Nat.le_succ _) (fun _ => .pure rfl rfl)
    (.bind rfl (levels.expression _ _) fun _ _ => .peekKind (.ite (fun _ => ?_) fun _ =>
      .expectClosing rfl rfl (.pure rfl rfl)))
  exact .bind rfl (levels.tupleTail _) fun _ _ =>
    .expectClosing rfl rfl (.pure (by simp [Node.relocate]) rfl)

/-- What an opening parenthesis starts ends with the closing one. -/
theorem spec_parseGrouped (opened : Location) :
    Returns (Tree.parseGrouped below opened tokens) fun result =>
      ∃ later, Consumed 0 tokens later ∧ (headToken later).kind = .rightParen ∧
        result.2 = Tree.next later := by
  refine .accept (fun closes => .ok ⟨tokens, .refl tokens, closes, rfl⟩) fun _ => ?_
  rw [run_bind]
  refine Returns.bind (levels.expression false tokens).takes fun first inside => ?_
  rw [run_bind, run_peekKind, ok_bind, run_ite]
  split
  · rw [run_bind]
    refine Returns.bind (levels.tupleTail first.2).takes fun rest further => ?_
    exact .expectClosing fun closes => .ok ⟨rest.2, inside.trans further, closes, rfl⟩
  · exact .expectClosing fun closes => .ok ⟨first.2, inside, closes, rfl⟩

theorem parseLambda (commas : Bool) (isFn : (headToken tokens).kind = .fnWord) :
    c.Nodes (count + 1) .whole (Tree.parseLambda below commas) (Tree.parseLambda below' commas)
      tokens := by
  refine .advance isFn rfl (Nat.le_refl _) fun token' moved => ?_
  rw [moved.location (by simp [isFn])]
  refine .bindWith rfl (levels.parameters _) fun _ _ found =>
    .advance (levels.arrow _ _ found) rfl (Nat.le_succ _) fun _ _ =>
      .peekKind (.ite (fun _ => ?_) fun _ => ?_)
  · exact .bindWhole (levels.parseBlock _) fun _ _ => .pure (by simp [Node.relocate]) rfl
  · exact .bindWhole (levels.expression _ _) fun _ _ =>
      .pure (by simp [Node.relocate, Node.relocateBlock]) rfl

/-! ## Operators and calls -/

-- The call marker is the one token that may end a statement although more may follow it.
theorem parsePostfixTail (commas : Bool) (callee : Node) : c.Nodes (count + 1) .tail
    (Tree.parsePostfixTail below commas callee)
    (Tree.parsePostfixTail below' commas (callee.relocate c.move)) tokens := by
  refine .accept rfl (Nat.le_refl _) (fun _ => .bind rfl (levels.arguments _ _) fun arguments _ =>
    ?_) (.pure rfl rfl)
  change c.Nodes count .tail _ _ _
  simpa [Node.relocate] using
    levels.postfixTail commas (.call callee arguments callee.location) _

theorem parseBinaryTail (commas : Bool) (minimum : Nat) (left : Node) : c.Nodes (count + 1) .tail
    (Tree.parseBinaryTail below commas minimum left)
    (Tree.parseBinaryTail below' commas minimum (left.relocate c.move)) tokens := by
  refine .peekKind (.ite (fun _ => .pure rfl rfl) fun binds => ?_)
  have positive : precedence (headToken tokens).kind ≠ 0 := by omega
  refine .operator (by simp [Plan.operates, positive]) (Nat.le_refl _) fun token' moved => ?_
  have other : (headToken tokens).kind ≠ .blockEnd := by
    intro isEnd
    simp [isEnd, precedence] at positive
  refine .bindWhole (levels.binary _ _ _) fun right _ => ?_
  rw [moved.location other, ← relocate_binaryNode]
  exact levels.binaryTail _ _ _ _

theorem parseCommaArguments : c.NodeLists (count + 1) .tail (Tree.parseCommaArguments below)
    (Tree.parseCommaArguments below') tokens :=
  .accept rfl (Nat.le_refl _) (fun _ => .bindWhole (levels.application _ _) fun _ _ =>
    .bind rfl (levels.commaArguments _) fun _ _ => .pure rfl rfl) (.pure rfl rfl)

theorem parseDotTail (commas : Bool) (left : Node) : c.Nodes (count + 1) .tail
    (Tree.parseDotTail below commas left)
    (Tree.parseDotTail below' commas (left.relocate c.move)) tokens := by
  refine .accept rfl (Nat.le_refl _) (fun _ => .expect rfl rfl (Nat.le_succ _)
    fun isName token' moved => .skip rfl rfl fun _ =>
      .bind rfl (levels.arguments _ _) fun arguments _ => ?_) (.pure rfl rfl)
  rw [moved.word isName, moved.location (by simp [isName])]
  change c.Nodes count .tail _ _ _
  simpa [Node.relocate] using
    levels.dotTail commas (.call (.identifier _ _) (left :: arguments) _) _

theorem parsePipeTail (commas : Bool) (left : Node) : c.Nodes (count + 1) .tail
    (Tree.parsePipeTail below commas left)
    (Tree.parsePipeTail below' commas (left.relocate c.move)) tokens := by
  refine .peek fun token' moved => .accept rfl (Nat.le_refl _) (fun isPipe =>
    .bindWhole (levels.dotChain _ _) fun right _ => ?_) (.pure rfl rfl)
  rw [moved.location (by simp [isPipe]), ← relocate_pipeNode]
  exact levels.pipeTail _ _ _

/-! ## Loops -/

theorem parseFor (isFor : (headToken tokens).kind = .forWord) : c.Nodes (count + 1) .whole
    (Tree.parseFor below) (Tree.parseFor below') tokens := by
  refine .advance isFor rfl (Nat.le_refl _) fun token' moved => ?_
  rw [moved.location (by simp [isFor])]
  exact .bind rfl (levels.pattern _) fun _ _ =>
    .expect rfl rfl (Nat.le_succ _) fun _ _ _ => .bind rfl (levels.expression _ _) fun _ _ =>
      .expect rfl rfl (Nat.le_succ _) fun _ _ _ =>
        .bindWhole (levels.parseClauseBody _) fun _ _ => .pure rfl rfl

theorem parseWhile (isWhile : (headToken tokens).kind = .whileWord) : c.Nodes (count + 1) .whole
    (Tree.parseWhile below) (Tree.parseWhile below') tokens := by
  refine .advance isWhile rfl (Nat.le_refl _) fun token' moved => ?_
  rw [moved.location (by simp [isWhile])]
  exact .bind rfl (levels.expression _ _) fun _ _ =>
    .expect rfl rfl (Nat.le_succ _) fun _ _ _ =>
      .bindWhole (levels.parseClauseBody _) fun _ _ => .pure rfl rfl

/-! ## Rules that interpolate -/

theorem parsePrimary (commas : Bool) : c.Nodes (count + 1) .whole
    (Tree.parsePrimary below c.interpolate commas)
    (Tree.parsePrimary below' c.interpolate' commas) tokens := by
  refine .peek fun token' moved => ?_
  have leaf {kind : Kind} (here : (headToken tokens).kind = kind) (takes : Plan.whole.takes kind)
      (ends : (Plan.whole.after kind).isDone) {node : Location → Node} (other : kind ≠ .blockEnd)
      (same : ∀ location, node (c.move location) = (node location).relocate c.move) :
      c.Nodes (count + 1) .whole
        (Tree.advance >>= fun _ => pure (node (headToken tokens).location) : Parser Node)
        (Tree.advance >>= fun _ => pure (node token'.location)) tokens :=
    .advance here takes (Nat.le_refl _) fun _ _ =>
      .pure (by rw [moved.location (by rwa [here]), same]) ends
  rw [moved.kind]
  cases kind : (headToken tokens).kind with
  | integer =>
      rw [moved.payload (by simp [kind]) (by simp [kind])]
      cases (headToken tokens).payload with
      | integer value => exact leaf kind rfl rfl nofun fun _ => rfl
      | _ => exact .fail rfl
  | float =>
      rw [moved.payload (by simp [kind]) (by simp [kind])]
      cases (headToken tokens).payload with
      | float value => exact leaf kind rfl rfl nofun fun _ => rfl
      | _ => exact .fail rfl
  | string =>
      rw [moved.payload (by simp [kind]) (by simp [kind]), moved.location (by simp [kind])]
      cases payload : (headToken tokens).payload with
      | segments segments => exact .literal kind payload fun _ => rfl
      | _ => exact .fail rfl
  | trueWord | falseWord => exact leaf kind rfl rfl nofun fun _ => rfl
  | identifier =>
      rw [moved.word kind]
      exact leaf kind rfl rfl nofun fun _ => rfl
  | leftParen =>
      rw [moved.location (by simp [kind])]
      exact .advance kind rfl (Nat.le_refl _) fun _ _ => levels.parseGrouped _ _
  | leftBracket =>
      rw [moved.location (by simp [kind])]
      exact .advance kind rfl (Nat.le_refl _) fun _ _ =>
        .bind rfl (levels.listElements _) fun _ _ =>
          .expectClosing rfl rfl (.pure (by simp [Node.relocate]) rfl)
  | fnWord => exact levels.parseLambda tokens commas kind
  | ifWord => exact levels.parseConditional false commas kind
  | _ => exact .fail rfl

theorem parseUnary (commas : Bool) : c.Nodes (count + 1) .whole
    (Tree.parseUnary below c.interpolate commas) (Tree.parseUnary below' c.interpolate' commas)
    tokens := by
  refine .peek fun token' moved => .accept rfl (Nat.le_refl _) (fun isMinus => ?_)
    (.accept rfl (Nat.le_refl _) (fun isNot => ?_) ?_)
  · rw [moved.location (by simp [isMinus])]
    exact .bindWhole (levels.unary _ _) fun _ _ => .pure rfl rfl
  · rw [moved.location (by simp [isNot])]
    exact .bindWhole (levels.unary _ _) fun _ _ => .pure rfl rfl
  · exact .bindWhole (levels.parsePrimary _ _) fun _ _ => levels.parsePostfixTail _ _ _

theorem parseBinary (commas : Bool) (minimum : Nat) : c.Nodes (count + 1) .whole
    (Tree.parseBinary below c.interpolate commas minimum)
    (Tree.parseBinary below' c.interpolate' commas minimum) tokens :=
  .bindWhole (levels.parseUnary _ _) fun _ _ => levels.parseBinaryTail _ _ _ _

theorem parseJuxtaposed (commas : Bool) : c.NodeLists (count + 1) .tail
    (Tree.parseJuxtaposed below c.interpolate commas)
    (Tree.parseJuxtaposed below' c.interpolate' commas) tokens :=
  .peekKind (.ite (fun _ => .bindFirst (levels.parseBinary _ _ _) fun _ _ =>
    .bind rfl (levels.juxtaposed _ _) fun _ _ => .pure rfl rfl) fun _ => .pure rfl rfl)

theorem parseArguments (commas : Bool) : c.NodeLists (count + 1) .tail
    (Tree.parseArguments below c.interpolate commas)
    (Tree.parseArguments below' c.interpolate' commas) tokens := by
  refine .bind rfl (levels.parseJuxtaposed _ _) fun arguments _ => ?_
  rw [List.isEmpty_map]
  exact .ite (fun _ => .bind rfl (levels.parseCommaArguments _) fun _ _ => .pure (by simp) rfl)
    fun _ => .pure rfl rfl

theorem parseApplication (commas : Bool) : c.Nodes (count + 1) .whole
    (Tree.parseApplication below c.interpolate commas)
    (Tree.parseApplication below' c.interpolate' commas) tokens := by
  refine .bindWhole (levels.parseBinary _ _ _) fun _ _ =>
    .bind rfl (levels.parseArguments _ _) fun arguments _ => .pure ?_ rfl
  cases arguments <;> simp [Node.relocate]

theorem parseDotChain (commas : Bool) : c.Nodes (count + 1) .whole
    (Tree.parseDotChain below c.interpolate commas)
    (Tree.parseDotChain below' c.interpolate' commas) tokens :=
  .bindWhole (levels.parseApplication _ _) fun _ _ => levels.parseDotTail _ _ _

theorem parseExpression (commas : Bool) : c.Nodes (count + 1) .whole
    (Tree.parseExpression below c.interpolate commas)
    (Tree.parseExpression below' c.interpolate' commas) tokens :=
  .bindWhole (levels.parseDotChain _ _) fun _ _ => levels.parsePipeTail _ _ _

theorem parseListElements : c.NodeLists (count + 1) .part
    (Tree.parseListElements below c.interpolate) (Tree.parseListElements below' c.interpolate')
    tokens :=
  .peekKind (.ite (fun _ => .pure rfl rfl) fun _ =>
    .bind rfl (levels.parseExpression _ _) fun _ _ => .accept rfl (Nat.le_refl _)
      (fun _ => .bind rfl (levels.listElements _) fun _ _ => .pure rfl rfl) (.pure rfl rfl))

theorem parseStatement : c.Nodes (count + 1) .whole (Tree.parseStatement below c.interpolate)
    (Tree.parseStatement below' c.interpolate') tokens := by
  refine .get (fun lists => by simp only [lists.moved.kind, lists.startsBinding]) ?_
  cases kind : (headToken tokens).kind with
  | forWord => exact levels.parseFor tokens kind
  | whileWord => exact levels.parseWhile tokens kind
  | ifWord =>
      exact .bindWhole (levels.parseConditional true true kind) fun _ _ =>
        .bind rfl (levels.parseDotTail _ _ _) fun _ _ => levels.parsePipeTail _ _ _
  | _ =>
      exact .ite (fun binds => levels.parseBinding binds) fun _ => levels.parseExpression _ _

theorem parseFurther (terminator : Kind) (statement : Node) : c.NodeLists (count + 1) .tail
    (Tree.parseFurther below terminator statement)
    (Tree.parseFurther below' terminator (statement.relocate c.move)) tokens :=
  .peekKind (.ite (fun _ => .pure rfl rfl) fun _ => .expect rfl rfl (Nat.le_refl _) fun _ _ _ =>
    .bind rfl (levels.statements _ _) fun _ _ => .pure rfl rfl)

theorem ends_parseFurther (terminator : Kind) (statement : Node) :
    Returns (Tree.parseFurther below terminator statement tokens) fun result =>
      (headToken result.2).kind = terminator ∨ (headToken result.2).kind = .endOfFile := by
  rw [Tree.parseFurther, run_bind, run_peekKind, ok_bind, run_ite]
  split
  case isTrue here => exact .ok (by simpa using here)
  case isFalse => exact .expect fun _ => (levels.ends terminator _).bind fun _ there => .ok there

theorem parseStatements (terminator : Kind) : c.NodeLists (count + 1) .tail
    (Tree.parseStatements below c.interpolate terminator)
    (Tree.parseStatements below' c.interpolate' terminator) tokens := by
  rw [parseStatements_eq, parseStatements_eq]
  exact .bind rfl (.separators tokens) fun _ _ => .peekKind (.ite (fun _ => .pure rfl rfl) fun _ =>
    .bind rfl (levels.parseStatement _) fun _ _ => levels.parseFurther _ _ _)

theorem ends_parseStatements (terminator : Kind) :
    Returns (Tree.parseStatements below c.interpolate terminator tokens) fun result =>
      (headToken result.2).kind = terminator ∨ (headToken result.2).kind = .endOfFile := by
  rw [parseStatements_eq, run_bind, run_skipSeparators, ok_bind, run_bind, run_peekKind, ok_bind,
    run_ite]
  split
  case isTrue here => exact .ok (by simpa using here)
  case isFalse =>
      exact Returns.bind (levels.parseStatement _).takes fun result _ =>
        levels.ends_parseFurther result.2 terminator result.1

/-- The rules above answer lists of one token more. -/
theorem next : c.Levels (count + 1) (below.next c.interpolate) (below'.next c.interpolate') where
  pattern := levels.parsePattern
  patternTail := levels.parsePatternTail
  transparent := levels.transparent_parsePattern
  transparentTail := levels.transparent_parsePatternTail
  parameters := levels.parseParameters
  arrow := levels.arrow_parseParameters
  statements terminator tokens := levels.parseStatements tokens terminator
  ends terminator tokens := levels.ends_parseStatements tokens terminator
  statement := levels.parseStatement
  conditional statement commas _ := levels.parseConditional statement commas
  expression commas tokens := levels.parseExpression tokens commas
  dotChain commas tokens := levels.parseDotChain tokens commas
  dotTail commas left tokens := levels.parseDotTail tokens commas left
  pipeTail commas left tokens := levels.parsePipeTail tokens commas left
  application commas tokens := levels.parseApplication tokens commas
  arguments commas tokens := levels.parseArguments tokens commas
  juxtaposed commas tokens := levels.parseJuxtaposed tokens commas
  commaArguments := levels.parseCommaArguments
  binary commas minimum tokens := levels.parseBinary tokens commas minimum
  binaryTail commas minimum left tokens := levels.parseBinaryTail tokens commas minimum left
  unary commas tokens := levels.parseUnary tokens commas
  postfixTail commas callee tokens := levels.parsePostfixTail tokens commas callee
  tupleTail := levels.parseTupleTail
  listElements := levels.parseListElements

theorem parseInterpolated : c.Nodes count .part (Tree.parseInterpolated below)
    (Tree.parseInterpolated below') tokens :=
  .bind rfl (levels.expression true tokens) fun _ _ => .expectEnd (.inr rfl) _ rfl

theorem parseProgram : c.NodeLists count .part (Tree.parseProgram below)
    (Tree.parseProgram below') tokens :=
  .bindWith rfl (levels.statements .endOfFile tokens) fun _ _ found =>
    .expectEnd (.inl ((or_self _).mp (levels.ends _ _ _ found))) _ rfl

end Levels

/-- No list has a negative length, so the rules at the bottom need not agree with any others. -/
theorem levels_zero (c : Correspondence) (level : Level) : c.Levels 0 .bottom level := by
  have fails {α : Type} {plan : Plan} {change : α → α} {expectation : Expectation}
      {parser : Parser α} {tokens : List Token} (isInner : expectation.isInner) :
      c.Runs 0 plan change (fail expectation) parser tokens :=
    ⟨fun _ short => absurd short (Nat.not_lt_zero _), _, tokens, .refl _ tokens,
      .unexpected expectation isInner⟩
  constructor
  case transparent | transparentTail | arrow => exact fun _ => .error _
  case ends => exact fun _ _ => .error _
  all_goals intros; exact fails rfl

theorem levels_ofNat (c : Correspondence) (base : Level) (count : Nat) :
    c.Levels count (Level.ofNat c.interpolate count)
      (Nat.repeat (Level.next c.interpolate') count base) := by
  induction count with
  | zero => exact c.levels_zero _
  | succ count ih => exact ih.next

/-- The same tokens, whose interpolated expressions are parsed alike in two ways. -/
def settled (interpolate interpolate' : List Token → Except Defect Node) : Correspondence where
  move := id
  interpolate := interpolate
  interpolate' := interpolate'
  Alike token token' := token' = token ∧ ∀ segments, token.payload = .segments segments →
    parseParts interpolate' segments = parseParts interpolate segments
  Fails defect defect' := defect' = defect
  moved := by
    rintro token _ ⟨rfl, -⟩
    exact .refl _
  literal := by
    rintro token _ ⟨rfl, same⟩ segments payload
    exact .of_eq (same segments payload) fun _ => rfl
  unexpected := by
    rintro token _ ⟨rfl, -⟩ expectation
    rfl
  unclosed := by
    rintro token _ ⟨rfl, -⟩ delimiter opened
    rfl

end Correspondence

/-- What the rules of a level consume, `count` levels above the bottom. -/
abbrev Level.Consumes (interpolate : List Token → Except Defect Node) (count : Nat)
    (level : Level) : Prop :=
  (Correspondence.settled interpolate interpolate).Levels count level level

theorem Level.consumes_ofNat (interpolate : List Token → Except Defect Node) (count : Nat) :
    (Level.ofNat interpolate count).Consumes interpolate count :=
  Correspondence.levels_ofNat (.settled interpolate interpolate) .bottom count

end Offside.Tree
