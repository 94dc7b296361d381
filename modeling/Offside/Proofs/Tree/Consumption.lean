import Offside.Proofs.Tree.Built
import Offside.Proofs.Tree.Running

/-!
# What is consumed

A rule of the grammar that succeeds has consumed tokens from the front of its list. Every bracket
and every block among them is closed among them, and none of them is the end of file or a token that
stands for text that forms none. Some tokens ask for more: operators, separators and what stands
before a block or a body. Most rules do not consume such a token last. The call marker is another
matter, since a call may have no arguments.
-/

namespace Offside

open Token (Kind)

namespace Token

/-- The last token that is not of an ignored kind. -/
def lastBut? (ignored : Kind) (tokens : List Token) : Option Token :=
  (tokens.filter (·.kind != ignored)).getLast?

theorem lastBut?_append (ignored : Kind) (first second : List Token) :
    lastBut? ignored (first ++ second) = (lastBut? ignored second).or (lastBut? ignored first) := by
  rw [lastBut?, List.filter_append, List.getLast?_append]
  rfl

theorem lastBut?_singleton (ignored : Kind) (token : Token) :
    lastBut? ignored [token] = if token.kind = ignored then none else some token := by
  by_cases same : token.kind = ignored <;> simp [lastBut?, same]

end Token

namespace Tree

open Token (lastBut? lastBut?_append lastBut?_singleton)

/-! ## Reading tokens -/

namespace Returns

variable {α : Type} {tokens : List Token} {kind : Kind} {holds : α × List Token → Prop}

theorem accept {first second : Parser α}
    (whenTrue : (headToken tokens).kind = kind → Returns (first (next tokens)) holds)
    (whenFalse : (headToken tokens).kind ≠ kind → Returns (second tokens) holds) :
    Returns ((Tree.accept kind >>= fun found => if found then first else second) tokens) holds := by
  rw [run_bind, run_accept]
  by_cases here : (headToken tokens).kind = kind
  · rw [if_pos here]
    exact whenTrue here
  · rw [if_neg here]
    exact whenFalse here

theorem expect {expectation : Expectation} {goOn : Token → Parser α}
    (goesOn : (headToken tokens).kind = kind →
      Returns (goOn (headToken tokens) (next tokens)) holds) :
    Returns ((Tree.expect kind expectation >>= goOn) tokens) holds := by
  rw [run_bind, run_expect]
  split
  case isTrue here => exact goesOn here
  case isFalse => exact .error _

theorem expectClosing {delimiter : Delimiter} {opened : Location} {goOn : Parser α}
    (goesOn : (headToken tokens).kind = delimiter.closingKind →
      Returns (goOn (next tokens)) holds) :
    Returns ((Tree.expectClosing delimiter opened >>= fun _ => goOn) tokens) holds := by
  rw [run_bind, run_expectClosing]
  split
  case isTrue here => exact goesOn here
  case isFalse =>
    split
    · exact .error _
    · exact .error _

end Returns

/-! ## Consumed tokens -/

/-- The tokens that are consumed in any number. -/
def isPlain (kind : Kind) : Bool :=
  !kind.isOpening && !kind.isClosing && kind != .endOfFile && kind != .invalid

/-- Whether a token of a kind leads from `before` brackets that are still to be closed to `after`
ones. -/
def passes (kind : Kind) (before after : Nat) : Bool :=
  if kind.isOpening then after == before + 1
  else if kind.isClosing then before == after + 1
  else isPlain kind && after == before

theorem passes_iff (kind : Kind) (before after : Nat) :
    passes kind before after ↔ (kind.isOpening ∧ after = before + 1) ∨
      (kind.isClosing ∧ before = after + 1) ∨ (isPlain kind ∧ after = before) := by
  cases kind <;> simp [passes, isPlain, Kind.isOpening, Kind.isClosing]

theorem passes_of_isPlain {kind : Kind} (plain : isPlain kind) (depth : Nat) :
    passes kind depth depth :=
  (passes_iff ..).mpr (.inr (.inr ⟨plain, rfl⟩))

theorem passes_add {kind : Kind} {before after : Nat} (pass : passes kind before after)
    (further : Nat) : passes kind (before + further) (after + further) := by
  rw [passes_iff] at pass ⊢
  rcases pass with ⟨opens, rfl⟩ | ⟨closes, rfl⟩ | ⟨plain, rfl⟩
  · exact .inl ⟨opens, by omega⟩
  · exact .inr (.inl ⟨closes, by omega⟩)
  · exact .inr (.inr ⟨plain, rfl⟩)

theorem depthAfter_of_passes {kind : Kind} {before after : Nat} (pass : passes kind before after) :
    Layout.depthAfter before kind = after := by
  rcases (passes_iff ..).mp pass with ⟨opens, rfl⟩ | ⟨closes, rfl⟩ | ⟨plain, rfl⟩
  · simp [Layout.depthAfter, opens]
  · cases kind <;> simp_all [Layout.depthAfter, Kind.isOpening, Kind.isClosing]
  · simp_all [Layout.depthAfter, isPlain]

/-- The tokens between two lists are consumed, and they close as many brackets as are given, beside
those that they open themselves. -/
inductive Consumed : Nat → List Token → List Token → Prop where
  | refl (tokens : List Token) : Consumed 0 tokens tokens
  | cons {before after : Nat} {tokens rest : List Token} :
      passes (headToken tokens).kind before after → Consumed after (next tokens) rest →
      Consumed before tokens rest

namespace Consumed

theorem trans {before after : Nat} {tokens later rest : List Token}
    (first : Consumed before tokens later) (second : Consumed after later rest) :
    Consumed (before + after) tokens rest := by
  induction first with
  | refl => rwa [Nat.zero_add]
  | cons pass _ ih => exact .cons (passes_add pass _) (ih second)

/-- What is consumed is a piece of the list with balanced brackets. -/
theorem exists_append {depth : Nat} {tokens rest : List Token}
    (consumed : Consumed depth tokens rest) : ∃ used, tokens = used ++ rest ∧
      (∀ token ∈ used, token.kind ≠ .endOfFile ∧ token.kind ≠ .invalid) ∧
      ∀ outer, (used.map Token.kind).foldl Layout.depthAfter (depth + outer) = outer := by
  induction consumed with
  | refl tokens => exact ⟨[], rfl, nofun, fun outer => Nat.zero_add outer⟩
  | @cons before after tokens rest pass _ ih =>
      obtain ⟨used, later, each, balanced⟩ := ih
      have proper : (headToken tokens).kind ≠ .endOfFile ∧ (headToken tokens).kind ≠ .invalid := by
        constructor <;> intro kind <;> rw [kind] at pass <;> cases pass
      cases tokens with
      | nil => exact absurd rfl proper.1
      | cons token tail =>
          rw [next_of_kind rfl proper.1, List.tail_cons] at later
          refine ⟨token :: used, by rw [later]; rfl, List.forall_mem_cons.mpr ⟨proper, each⟩, ?_⟩
          intro outer
          have step := depthAfter_of_passes (passes_add pass outer)
          rw [List.map_cons, List.foldl_cons, ← headToken_cons token tail, step, balanced]

theorem length_le {depth : Nat} {tokens rest : List Token} (consumed : Consumed depth tokens rest) :
    rest.length ≤ tokens.length := by
  obtain ⟨used, rfl, -⟩ := consumed.exists_append
  simp

/-- Nothing is consumed at the end of file. -/
theorem at_end {depth : Nat} {tokens rest : List Token} (consumed : Consumed depth tokens rest)
    (isEnd : (headToken tokens).kind = .endOfFile) : rest = tokens := by
  cases consumed with
  | refl => rfl
  | cons pass =>
      rw [isEnd] at pass
      cases pass

end Consumed

/-- Whenever a parser succeeds, the tokens it has consumed close as many brackets as are given. -/
def Takes {α : Type} (depth : Nat) (parser : Parser α) (tokens : List Token) : Prop :=
  Returns (parser tokens) fun result => Consumed depth tokens result.2

theorem Takes.lift {α : Type} {outcome : Except Defect α} {tokens : List Token} :
    Takes 0 (liftM outcome) tokens := by
  cases outcome with
  | error defect => exact .error defect
  | ok result => exact .ok (.refl tokens)

/-- The tokens between two lists are consumed, and there is at least one: the first one, and after
it those that close the bracket which it may open. -/
def ConsumedFirst (tokens rest : List Token) : Prop :=
  ∃ depth, passes (headToken tokens).kind 0 depth ∧ Consumed depth (next tokens) rest

theorem ConsumedFirst.length_lt {tokens rest : List Token} (consumed : ConsumedFirst tokens rest) :
    rest.length < tokens.length := by
  obtain ⟨depth, pass, consumed⟩ := consumed
  cases tokens with
  | nil => cases pass
  | cons token later =>
      rw [headToken_cons] at pass
      have inner : token.kind ≠ .endOfFile := by
        intro isEnd
        rw [isEnd] at pass
        cases pass
      rw [next_cons inner] at consumed
      exact Nat.lt_succ_of_le consumed.length_le

/-- Whenever a parser succeeds, it has consumed the first token. -/
def TakesFirst {α : Type} (parser : Parser α) (tokens : List Token) : Prop :=
  Returns (parser tokens) fun result => ConsumedFirst tokens result.2

namespace TakesFirst

variable {α β : Type} {parser : Parser α} {tokens : List Token} {kind : Kind} {depth : Nat}

theorem takes (first : TakesFirst parser tokens) : Takes 0 parser tokens := by
  intro result found
  obtain ⟨depth, pass, consumed⟩ := first result found
  exact .cons pass consumed

end TakesFirst

/-! ## Open blocks -/

/-- Whether a token of a kind leads from `before` open blocks to `after` ones. -/
def crosses : Kind → (before after : Nat) → Bool
  | .endOfFile, _, _ | .invalid, _, _ => false
  | .blockStart, before, after => after == before + 1
  | .blockEnd, before, after => before == after + 1
  | _, before, after => after == before

theorem crosses_add {kind : Kind} {before after : Nat} (crossed : crosses kind before after)
    (further : Nat) : crosses kind (before + further) (after + further) := by
  cases kind <;> simp_all [crosses] <;> omega

/-- The tokens between two lists are passed over, from some number of open blocks to another. The
expressions in a string literal have been parsed. -/
inductive Passed (interpolate : List Token → Except Defect Node) :
    Nat → List Token → Nat → List Token → Prop where
  | refl (blocks : Nat) (tokens : List Token) : Passed interpolate blocks tokens blocks tokens
  | cons {before between after : Nat} {tokens rest : List Token} :
      crosses (headToken tokens).kind before between →
      ((headToken tokens).kind = .string → ∃ segments parts,
        (headToken tokens).payload = .segments segments ∧
          parseParts interpolate segments = .ok parts) →
      Passed interpolate between (next tokens) after rest →
      Passed interpolate before tokens after rest

namespace Passed

variable {interpolate : List Token → Except Defect Node} {before between after : Nat}
variable {tokens later rest : List Token}

theorem trans (first : Passed interpolate before tokens between later)
    (second : Passed interpolate between later after rest) :
    Passed interpolate before tokens after rest := by
  induction first with
  | refl => exact second
  | cons crossed parsed _ ih => exact .cons crossed parsed (ih second)

theorem add (passed : Passed interpolate before tokens after rest) (further : Nat) :
    Passed interpolate (before + further) tokens (after + further) rest := by
  induction passed with
  | refl => exact .refl _ _
  | cons crossed parsed _ ih => exact .cons (crosses_add crossed further) parsed ih

theorem suffix (passed : Passed interpolate before tokens after rest) : rest <:+ tokens := by
  induction passed with
  | refl => exact List.suffix_rfl
  | @cons _ _ _ tokens _ _ _ _ ih =>
      refine ih.trans ?_
      unfold next
      split
      · exact List.suffix_rfl
      · exact List.tail_suffix tokens

end Passed

/-! ## The last token -/

/-- The tokens that are never the last ones of a statement. -/
def demands (kind : Kind) : Bool :=
  Layout.opensBlock kind || (Layout.expectsMore kind && kind != .bang)

/-- How the last of some tokens must be, the ends of blocks apart. -/
inductive Finish where
  /-- It may be any token. -/
  | loose
  /-- If there is one, it asks for nothing more. -/
  | settled
  /-- There is one, and it asks for nothing more. -/
  | completed

namespace Finish

/-- Whether a last token is as it must be. -/
def fits : Finish → Option Token → Bool
  | .loose, _ => true
  | .settled, last => last.all (!demands ·.kind)
  | .completed, last => last.any (!demands ·.kind)

/-- How the tokens after one of some kind must end. -/
def after (finish : Finish) (kind : Kind) : Finish :=
  match finish with
  | .loose => .loose
  | .settled => if demands kind || kind.isOpening then .completed else .settled
  | .completed =>
    if demands kind || kind.isOpening || kind == .blockEnd then .completed else .settled

/-- How tokens must end after some that are complete. -/
def relaxed : Finish → Finish
  | .completed => .settled
  | finish => finish

/-- Whether what ends in a first way and then in a second one ends in a third way. -/
def leads : (first second whole : Finish) → Bool
  | _, _, .loose | _, .completed, _ => true
  | .completed, .settled, _ | .settled, .settled, .settled => true
  | _, _, _ => false

theorem leads_relaxed (finish : Finish) : leads .completed finish.relaxed finish := by
  cases finish <;> rfl

theorem fits_cons {finish : Finish} {token : Token} {used : List Token}
    (fits : (finish.after token.kind).fits (lastBut? .blockEnd used)) :
    finish.fits (lastBut? .blockEnd (token :: used)) := by
  rw [← List.singleton_append, lastBut?_append, lastBut?_singleton]
  generalize lastBut? .blockEnd used = last at fits
  cases finish with
  | loose => rfl
  | settled | completed => cases last <;> by_cases demands token.kind <;> grind [Finish.fits, after]

theorem fits_append {first second whole : Finish} (leads : first.leads second whole)
    {last last' : Option Token} (fits : first.fits last) (fits' : second.fits last') :
    whole.fits (last'.or last) := by
  cases first <;> cases second <;> cases whole <;> cases last <;> cases last' <;>
    simp_all [Finish.fits, Finish.leads]

end Finish

/-! ## Plans -/

/-- What some tokens are to do: close blocks and brackets, beside those that they open themselves,
and end in some way. -/
structure Plan where
  blocks : Nat
  brackets : Nat
  finish : Finish

namespace Plan

/-- Any tokens with balanced blocks and brackets. -/
def part : Plan := ⟨0, 0, .loose⟩

/-- Tokens that may end a statement, if there are any. -/
def tail : Plan := ⟨0, 0, .settled⟩

/-- Tokens that may end a statement. -/
def whole : Plan := ⟨0, 0, .completed⟩

/-- The number of open blocks after a token. -/
def blocksAfter (blocks : Nat) : Kind → Nat
  | .blockStart => blocks + 1
  | .blockEnd => blocks - 1
  | _ => blocks

/-- What is left to do after a token of some kind. -/
def after (plan : Plan) (kind : Kind) : Plan :=
  ⟨blocksAfter plan.blocks kind, Layout.depthAfter plan.brackets kind, plan.finish.after kind⟩

/-- Whether a plan has a place for a token of some kind. -/
def admits (plan : Plan) (kind : Kind) : Bool :=
  crosses kind plan.blocks (blocksAfter plan.blocks kind) &&
    passes kind plan.brackets (Layout.depthAfter plan.brackets kind)

/-- Whether a token of some kind can be consumed without looking into it. -/
def takes (plan : Plan) (kind : Kind) : Bool :=
  plan.admits kind && kind != .string

/-- Whether nothing is left to do. -/
def isDone (plan : Plan) : Bool :=
  plan.blocks == 0 && plan.brackets == 0 && plan.finish.fits none

/-- The tokens between two operands, or between a pattern and its value. -/
def operates (kind : Kind) : Bool :=
  isBindingOperator kind || (updateOperator? kind).isSome || precedence kind != 0

/-- It does not matter which operator comes next. -/
theorem spec_of_operates {kind : Kind} (operator : operates kind) (plan : Plan) :
    plan.takes kind ∧ plan.after kind = plan.after .plus := by
  cases kind <;> first | exact ⟨by simp [takes, admits, crosses, passes, blocksAfter, isPlain,
    Layout.depthAfter, Kind.isOpening, Kind.isClosing], rfl⟩ | cases operator

end Plan

/-- The tokens between two lists do what is planned. -/
structure Crossed (interpolate : List Token → Except Defect Node) (plan : Plan)
    (tokens rest : List Token) : Prop where
  passed : Passed interpolate plan.blocks tokens 0 rest
  consumed : Consumed plan.brackets tokens rest
  finished : ∃ used, tokens = used ++ rest ∧ plan.finish.fits (lastBut? .blockEnd used)

namespace Crossed

variable {interpolate : List Token → Except Defect Node} {plan : Plan}
variable {tokens later rest : List Token}

theorem refl (tokens : List Token) (done : plan.isDone) :
    Crossed interpolate plan tokens tokens := by
  obtain ⟨blocks, brackets, finish⟩ := plan
  simp only [Plan.isDone, Bool.and_eq_true, beq_iff_eq] at done
  obtain ⟨⟨rfl, rfl⟩, fits⟩ := done
  exact ⟨.refl 0 tokens, .refl tokens, [], rfl, fits⟩

theorem cons (admits : plan.admits (headToken tokens).kind)
    (parsed : (headToken tokens).kind = .string → ∃ segments parts,
      (headToken tokens).payload = .segments segments ∧
        parseParts interpolate segments = .ok parts)
    (later : Crossed interpolate (plan.after (headToken tokens).kind) (next tokens) rest) :
    Crossed interpolate plan tokens rest := by
  obtain ⟨crossed, pass⟩ := Bool.and_eq_true_iff.mp admits
  refine ⟨.cons crossed parsed later.passed, .cons pass later.consumed, ?_⟩
  obtain ⟨used, split, fits⟩ := later.finished
  cases tokens with
  | nil => cases crossed
  | cons token tail =>
      have inner : token.kind ≠ .endOfFile := by
        intro isEnd
        rw [headToken_cons, isEnd] at crossed
        cases crossed
      rw [next_cons inner] at split
      exact ⟨token :: used, by rw [split]; rfl, Finish.fits_cons fits⟩

theorem append {first whole : Finish} (before : Crossed interpolate ⟨0, 0, first⟩ tokens later)
    (crossed : Crossed interpolate plan later rest) (leads : first.leads plan.finish whole) :
    Crossed interpolate { plan with finish := whole } tokens rest := by
  have passed := before.passed.add plan.blocks
  have consumed := before.consumed.trans crossed.consumed
  rw [Nat.zero_add] at passed consumed
  obtain ⟨used, rfl, fits⟩ := before.finished
  obtain ⟨used', rfl, fits'⟩ := crossed.finished
  refine ⟨passed.trans crossed.passed, consumed, used ++ used', (List.append_assoc ..).symm, ?_⟩
  rw [lastBut?_append]
  exact Finish.fits_append leads fits fits'

/-- The ends of statements in front. -/
theorem skip (tokens : List Token) : Crossed interpolate .tail tokens (skip tokens) := by
  induction tokens with
  | nil => exact .refl [] rfl
  | cons token rest ih =>
      by_cases separates : token.kind = .statementEnd
      · rw [Tree.skip, List.dropWhile_cons_of_pos (by simpa using separates)]
        have ahead : (headToken (token :: rest)).kind = .statementEnd := separates
        refine .cons (by rw [ahead]; rfl) (by simp [separates]) ?_
        rw [ahead, next_of_kind ahead (by decide)]
        exact ih
      · rw [Tree.skip, List.dropWhile_cons_of_neg (by simpa using separates)]
        exact .refl _ rfl

/-- Tokens that may end a statement are consumed from the first one on. -/
theorem first (crossed : Crossed interpolate .whole tokens rest) : ConsumedFirst tokens rest := by
  obtain ⟨used, split, fits⟩ := crossed.finished
  have consumed : Consumed 0 tokens rest := crossed.consumed
  cases consumed with
  | refl =>
      obtain rfl : used = [] := by simpa using split
      cases fits
  | cons pass later => exact ⟨_, pass, later⟩

end Crossed

/-! ## Patterns in front of a binding operator -/

/-- The tokens between two lists do not matter to whether a tuple is bound. -/
def Transparent (tokens rest : List Token) : Prop :=
  ∀ depth, bindsTuple (depth + 1) tokens = bindsTuple (depth + 1) rest

/-- Whether a tuple is bound does not depend on a name or a comma in front. -/
theorem bindsTuple_next {tokens : List Token}
    (inside : (headToken tokens).kind = .identifier ∨ (headToken tokens).kind = .comma)
    (depth : Nat) : bindsTuple depth tokens = bindsTuple depth (next tokens) := by
  cases tokens with
  | nil => simp [headToken, default] at inside
  | cons token rest => rcases inside with kind | kind <;> simp_all [bindsTuple, next]

theorem bindsTuple_open {tokens : List Token} (opens : (headToken tokens).kind = .leftParen)
    (depth : Nat) : bindsTuple depth tokens = bindsTuple (depth + 1) (next tokens) := by
  cases tokens with
  | nil => simp [headToken, default] at opens
  | cons token rest => simp_all [bindsTuple, next]

theorem bindsTuple_close {tokens : List Token} (closes : (headToken tokens).kind = .rightParen)
    (depth : Nat) : bindsTuple (depth + 2) tokens = bindsTuple (depth + 1) (next tokens) := by
  cases tokens with
  | nil => simp [headToken, default] at closes
  | cons token rest => simp_all [bindsTuple, next]

theorem bindsTuple_last {tokens : List Token} (closes : (headToken tokens).kind = .rightParen) :
    bindsTuple 1 tokens = isBindingOperator (headToken (next tokens)).kind := by
  cases tokens with
  | nil => simp [headToken, default] at closes
  | cons token rest => simp_all [bindsTuple, next]

/-- If a tuple is bound, then so it is after the tokens in front are consumed. -/
theorem Consumed.bindsTuple {before : Nat} {tokens rest : List Token}
    (consumed : Consumed before tokens rest) {depth : Nat}
    (binds : bindsTuple (before + depth + 1) tokens) : bindsTuple (depth + 1) rest := by
  induction consumed with
  | refl => rwa [Nat.zero_add] at binds
  | @cons before after tokens rest pass _ ih =>
      apply ih
      cases kind : (headToken tokens).kind with
      | leftParen =>
          obtain rfl : after = before + 1 := by simpa [kind, passes, Kind.isOpening] using pass
          rwa [bindsTuple_open kind, Nat.add_right_comm (before + depth),
            Nat.add_right_comm before] at binds
      | rightParen =>
          obtain rfl : before = after + 1 := by
            simpa [kind, passes, Kind.isOpening, Kind.isClosing] using pass
          rwa [Nat.add_right_comm after 1 depth, bindsTuple_close kind] at binds
      | identifier =>
          obtain rfl : after = before := by
            simpa [kind, passes, Kind.isOpening, Kind.isClosing, isPlain] using pass
          rwa [bindsTuple_next (.inl kind)] at binds
      | comma =>
          obtain rfl : after = before := by
            simpa [kind, passes, Kind.isOpening, Kind.isClosing, isPlain] using pass
          rwa [bindsTuple_next (.inr kind)] at binds
      | _ =>
          cases tokens with
          | nil => cases binds
          | cons token tail => simp_all [Tree.bindsTuple]
end Tree

end Offside
