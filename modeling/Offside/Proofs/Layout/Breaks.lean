import Offside.Proofs.Layout.Padding

/-!
# Line breaks without meaning

Within brackets layout skips line breaks, and outside of them the first of several line breaks in a
row is the one that counts. So at these positions, and at the start of a text, any number of line
breaks can be inserted: the layout stays the same, and so does a fault of layout.
-/

namespace Offside.Layout

/-! ## Insertion -/

/-- The tokens with others inserted before each of them and after the last one. -/
def interleave (others : Nat → List Token) : List Token → List Token
  | [] => others 0
  | token :: rest => others 0 ++ token :: interleave (fun position => others (position + 1)) rest

/-- The number of brackets that are open after some tokens. A closing bracket counts only if a
bracket is open. -/
def openBrackets (depth : Nat) (tokens : List Token) : Nat :=
  (tokens.map Token.kind).foldl depthAfter depth

/-- The token with the given index is a line break. -/
def IsBreak (tokens : List Token) (index : Nat) : Prop :=
  tokens[index]?.map Token.kind = some .newline

/-- A position in a list of tokens at which a line break means nothing: at the start, within
brackets, or next to a line break. -/
def Idle (tokens : List Token) (position : Nat) : Prop :=
  position = 0 ∨ 0 < openBrackets 0 (tokens.take position) ∨ IsBreak tokens position ∨
    IsBreak tokens (position - 1)

instance (tokens : List Token) (index : Nat) : Decidable (IsBreak tokens index) :=
  inferInstanceAs (Decidable (_ = _))

instance (tokens : List Token) (position : Nat) : Decidable (Idle tokens position) :=
  inferInstanceAs (Decidable (_ ∨ _ ∨ _ ∨ _))

/-- A position in the tokens that are to be read next at which a line break means nothing. -/
def State.Idles (state : State) (tokens : List Token) : (position : Nat) → Prop
  | 0 => state.atLineStart ∨ 0 < state.depth ∨ IsBreak tokens 0
  | position + 1 =>
      0 < openBrackets state.depth (tokens.take (position + 1)) ∨
        IsBreak tokens (position + 1) ∨ IsBreak tokens position

theorem idles_initial {tokens : List Token} {position : Nat} (idle : Idle tokens position) :
    State.initial.Idles tokens position := by
  cases position with
  | zero => exact .inl rfl
  | succ position => exact idle.resolve_left (Nat.succ_ne_zero position)

/-! ## Brackets -/

theorem step_depth {state after : State} {token : Token} {written : List Token}
    (ok : step state token = .ok (written, after)) :
    after.depth = depthAfter state.depth token.kind := by
  by_cases isBreak : token.kind = .newline
  · rw [step_newline isBreak] at ok
    obtain ⟨-, rfl⟩ := Prod.mk.inj (Except.ok.inj ok)
    rw [isBreak]
    rfl
  · obtain ⟨before, entered, found, -, rfl⟩ := exists_enter isBreak ok
    have same := (enter_frame found).2
    rw [State.accept]
    split
    case isTrue dropped =>
        have kind : token.kind = .semicolon := by simpa using (Bool.and_eq_true_iff.mp dropped).1
        rw [wrote_depth, same, kind]
        rfl
    case isFalse => rw [same]

/-- What means nothing later on still means nothing after a step. -/
theorem State.Idles.step {state after : State} {token : Token} {rest written : List Token}
    (ok : Layout.step state token = .ok (written, after)) {position : Nat}
    (idles : state.Idles (token :: rest) (position + 1)) : after.Idles rest position := by
  have depth := step_depth ok
  cases position with
  | zero =>
      rcases idles with inBrackets | before | isBreak
      · exact .inr (.inl (depth ▸ inBrackets))
      · exact .inr (.inr before)
      · -- A line break has just been read.
        have isBreak : token.kind = .newline := Option.some.inj isBreak
        rw [step_newline isBreak] at ok
        obtain ⟨-, rfl⟩ := Prod.mk.inj (Except.ok.inj ok)
        exact .inl rfl
  | succ position =>
      refine idles.imp_left fun inBrackets => ?_
      rw [depth]
      exact inBrackets

/-! ## Runs -/

theorem enter_of_brackets {state : State} (inBrackets : 0 < state.depth) (token : Token) :
    enter state token = .ok ([], { state with atLineStart := false }) := by
  rw [enter, if_neg]
  simp only [Bool.and_eq_true, beq_iff_eq, not_and]
  intro _
  exact Nat.ne_of_gt inBrackets

theorem endLine_of_brackets {state : State} (inBrackets : 0 < state.depth) :
    state.endLine = { state with atLineStart := true } := by
  have outside : (state.depth == 0) = false := beq_false_of_ne (Nat.ne_of_gt inBrackets)
  simp [State.endLine, outside]

theorem endLine_of_atLineStart {state : State} (fresh : state.atLineStart = true) :
    state.endLine = state := by
  obtain ⟨columns, depth, opener, previous, written, _⟩ := state
  obtain rfl : _ = true := fresh
  simp [State.endLine]

/-- Tokens are read in brackets as if no line break stood before them. -/
theorem run_endLine_of_brackets {state : State} (inBrackets : 0 < state.depth) (last : Location)
    (tokens : List Token) : run state.endLine last tokens = run state last tokens := by
  have finished (endOfFile : Token) : finish state.endLine endOfFile = finish state endOfFile := by
    rw [endLine_of_brackets inBrackets]
    rfl
  cases tokens with
  | nil => exact finished _
  | cons token rest =>
      by_cases isEnd : token.kind = .endOfFile
      · rw [run_endOfFile isEnd, run_endOfFile isEnd, finished]
      · by_cases isBreak : token.kind = .newline
        · rw [run_newline isBreak, run_newline isBreak, endLine_endLine]
        · have entered : enter state.endLine token = enter state token := by
            rw [endLine_of_brackets inBrackets, enter_of_brackets inBrackets,
              enter_of_brackets (by exact inBrackets)]
          rw [run_cons isEnd, run_cons isEnd, step_eq isBreak, step_eq isBreak, entered]

theorem run_endLine_of_idles {state : State} {tokens : List Token} (idles : state.Idles tokens 0)
    (last : Location) : run state.endLine last tokens = run state last tokens := by
  rcases idles with fresh | inBrackets | isBreak
  · rw [endLine_of_atLineStart fresh]
  · exact run_endLine_of_brackets inBrackets last tokens
  · obtain ⟨token, rest, rfl⟩ : ∃ token rest, tokens = token :: rest :=
      List.exists_cons_of_ne_nil (by rintro rfl; cases isBreak)
    have isBreak : token.kind = .newline := Option.some.inj isBreak
    rw [run_newline isBreak, run_newline isBreak, endLine_endLine]

/-- Line breaks are passed over where they mean nothing. -/
theorem run_breaks {breaks : List Token} (each : ∀ token ∈ breaks, token.kind = .newline)
    {state : State} {tokens : List Token} (nonempty : tokens ≠ [])
    (idles : breaks ≠ [] → state.Idles tokens 0) (last last' : Location) :
    run state last (breaks ++ tokens) = run state last' tokens := by
  induction breaks generalizing state last with
  | nil => exact run_last nonempty ..
  | cons token breaks ih =>
      obtain ⟨isBreak, each⟩ := List.forall_mem_cons.mp each
      calc run state last (token :: breaks ++ tokens)
          = run state.endLine token.location (breaks ++ tokens) := run_newline isBreak ..
        _ = run state.endLine last' tokens := ih each (fun _ => .inl rfl) _
        _ = run state last' tokens := run_endLine_of_idles (idles (by simp)) last'

/-- A run passes over all line breaks that are inserted where they mean nothing. -/
theorem run_interleave {tokens : List Token} (ended : ∃ token ∈ tokens, token.kind = .endOfFile)
    {breaks : Nat → List Token}
    (each : ∀ position, ∀ token ∈ breaks position, token.kind = .newline)
    {state : State} (idles : ∀ position, breaks position ≠ [] → state.Idles tokens position)
    (last last' : Location) :
    run state last (interleave breaks tokens) = run state last' tokens := by
  induction tokens generalizing state breaks last last' with
  | nil =>
      obtain ⟨_, member, _⟩ := ended
      cases member
  | cons token rest ih =>
      -- Whether breaks before a token mean nothing does not depend on what follows the token.
      have here (others : List Token) (some : breaks 0 ≠ []) : state.Idles (token :: others) 0 :=
        idles 0 some
      rw [interleave, run_breaks (each 0) (List.cons_ne_nil _ _) (here _) last last']
      by_cases isEnd : token.kind = .endOfFile
      · rw [run_endOfFile isEnd, run_endOfFile isEnd]
      · rw [run_cons isEnd, run_cons isEnd]
        cases stepped : step state token with
        | error fault => rfl
        | ok result =>
            have ended : ∃ token ∈ rest, token.kind = .endOfFile := by
              obtain ⟨final, member, ends⟩ := ended
              refine ⟨final, (List.mem_cons.mp member).resolve_left fun same => isEnd ?_, ends⟩
              rw [← same, ends]
            have later := ih ended (fun position => each (position + 1))
              (fun position some => (idles (position + 1) some).step stepped) token.location
              token.location
            change (run result.2 token.location _).map _ = (run result.2 token.location _).map _
            rw [later]

/-- Line breaks that are inserted within brackets, next to other line breaks or at the start of a
text change nothing in its layout, and nothing in a fault of its layout. -/
theorem normalize_interleave {tokens : List Token}
    (ended : ∃ token ∈ tokens, token.kind = .endOfFile) {breaks : Nat → List Token}
    (each : ∀ position, ∀ token ∈ breaks position, token.kind = .newline)
    (idle : ∀ position, breaks position ≠ [] → Idle tokens position) :
    normalize (interleave breaks tokens) = normalize tokens :=
  run_interleave ended each (fun position some => idles_initial (idle position some)) _ _

/-- A call over two lines in the body of a loop. -/
def brokenCall : List Token :=
  [tokenAt 1 .whileWord, tokenAt 7 .identifier, tokenAt 8 .colon, tokenAt 9 .newline,
    tokenAt 5 .identifier, tokenAt 6 .leftParen, tokenAt 7 .newline, tokenAt 3 .identifier,
    tokenAt 4 .rightParen, tokenAt 5 .newline, tokenAt 1 .identifier, tokenAt 2 .endOfFile]

/-- Two line breaks at the start, after the block opener, in the brackets and before the last
line. -/
def moreBreaks (position : Nat) : List Token :=
  if position ∈ [0, 4, 8, 9] then [tokenAt 1 .newline, tokenAt 1 .newline] else []

theorem normalize_interleave_brokenCall :
    (∃ token ∈ brokenCall, token.kind = .endOfFile) ∧
      (∀ position, ∀ token ∈ moreBreaks position, token.kind = .newline) ∧
      (∀ position, moreBreaks position ≠ [] → Idle brokenCall position) ∧
      (interleave moreBreaks brokenCall).length = brokenCall.length + 8 ∧
      normalize (interleave moreBreaks brokenCall) = normalize brokenCall := by
  have ended : ∃ token ∈ brokenCall, token.kind = .endOfFile :=
    ⟨tokenAt 2 .endOfFile, by simp [brokenCall], rfl⟩
  have each : ∀ position, ∀ token ∈ moreBreaks position, token.kind = .newline := by
    intro position token member
    unfold moreBreaks at member
    split at member
    · simp only [List.mem_cons, List.not_mem_nil, or_false, or_self] at member
      rw [member]
      rfl
    · cases member
  have idle : ∀ position, moreBreaks position ≠ [] → Idle brokenCall position := by
    intro position some
    have among : position ∈ [0, 4, 8, 9] := by
      by_contra other
      exact some (if_neg other)
    simp only [List.mem_cons, List.not_mem_nil, or_false] at among
    rcases among with rfl | rfl | rfl | rfl <;> decide
  exact ⟨ended, each, idle, rfl, normalize_interleave ended each idle⟩

end Offside.Layout
