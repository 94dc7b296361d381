import Offside.Proofs.Layout.Concatenation
import Offside.Proofs.Token.Padding

/-!
# Layout of more line breaks

A line break after another one, before the end of file or at the start of a text changes nothing in
the layout. The end of file gives its own place to the blocks that it closes.
-/

namespace Offside.Layout

open Token (Spaced)

/-- Two layouts that differ in the place of the end of file only. -/
inductive EndsElsewhere : List Token → List Token → Prop
  | intro (written : List Token) (count : Nat) (location location' : Location)
      {endOfFile endOfFile' : Token} (isEnd : endOfFile.kind = .endOfFile)
      (isEnd' : endOfFile'.kind = .endOfFile) :
      EndsElsewhere (written ++ (blockEnds count location ++ [endOfFile]))
        (written ++ (blockEnds count location' ++ [endOfFile']))

theorem EndsElsewhere.append {output output' : List Token} (same : EndsElsewhere output output')
    (before : List Token) : EndsElsewhere (before ++ output) (before ++ output') := by
  obtain ⟨written, count, location, location', isEnd, isEnd'⟩ := same
  have whole := intro (before ++ written) count location location' isEnd isEnd'
  rwa [List.append_assoc, List.append_assoc] at whole

/-! ## Line breaks -/

theorem run_newline {token : Token} (isBreak : token.kind = .newline) (state : State)
    (last : Location) (rest : List Token) :
    run state last (token :: rest) = run state.endLine token.location rest := by
  rw [run_cons (by simp [isBreak]), step_newline isBreak]
  change (run state.endLine token.location rest).map ([] ++ ·) = _
  cases run state.endLine token.location rest <;> rfl

theorem endLine_endLine (state : State) : state.endLine.endLine = state.endLine := by
  simp [State.endLine]

theorem awaiting_endLine {state : State} (rests : state.awaiting = none) :
    state.endLine.awaiting = none := by
  unfold State.awaiting at rests ⊢
  cases waiting : state.opener with
  | some opener =>
      rw [waiting] at rests
      cases rests
  | none =>
      rw [waiting] at rests
      have quiet : state.endLine.opener = none := by
        simp only [State.endLine, waiting]
        split
        case isTrue opens => rwa [if_pos (Bool.and_eq_true_iff.mp opens).1] at rests
        case isFalse => rfl
      rw [quiet]
      exact rests

/-- A line break changes nothing where a line ends. -/
theorem run_endLine {tokens : List Token}
    (ends : ∀ token ∈ tokens.head?, token.kind = .newline ∨ token.kind = .endOfFile) {state : State}
    {last : Location} {output : List Token} (ran : run state last tokens = .ok output) :
    run state.endLine last tokens = .ok output := by
  have finished {endOfFile : Token} (ok : finish state endOfFile = .ok output) :
      finish state.endLine endOfFile = .ok output := by
    rw [finish_eq ok, finish_eq_match, awaiting_endLine (awaiting_of_finish ok)]
    rfl
  cases tokens with
  | nil => exact finished ran
  | cons token rest =>
      rcases ends token rfl with isBreak | isEnd
      · rw [run_newline isBreak] at ran ⊢
        rwa [endLine_endLine]
      · rw [run_endOfFile isEnd] at ran ⊢
        exact finished ran

/-- The layout of tokens with more line breaks. -/
theorem run_spaced {tokens tokens' : List Token} (spaced : Spaced tokens tokens') {state : State}
    {last : Location} {output : List Token} (ran : run state last tokens = .ok output)
    (last' : Location) :
    ∃ output', run state last' tokens' = .ok output' ∧ EndsElsewhere output output' := by
  induction spaced generalizing state last last' output with
  | @last endOfFile endOfFile' isEnd isEnd' =>
      rw [run_endOfFile isEnd] at ran
      obtain rfl := finish_eq ran
      rw [run_endOfFile isEnd', finish_eq_match, awaiting_of_finish ran]
      exact ⟨_, rfl, .intro [] _ _ _ isEnd isEnd'⟩
  | @keep token rest rest' inner _ ih =>
      obtain ⟨written, after, later, stepped, ranLater, rfl⟩ := (run_cons_eq_ok inner).mp ran
      obtain ⟨later', ranLater', same⟩ := ih ranLater token.location
      exact ⟨_, (run_cons_eq_ok inner).mpr ⟨written, after, later', stepped, ranLater', rfl⟩,
        same.append written⟩
  | line isBreak isBreak' _ ih =>
      rw [run_newline isBreak] at ran
      rw [run_newline isBreak']
      exact ih ran _
  | more isBreak ends _ ih =>
      rw [run_newline isBreak]
      exact ih (run_endLine ends ran) _

/-- Line breaks at the start of a text change nothing. -/
theorem normalize_breaks {breaks tokens : List Token}
    (each : ∀ token ∈ breaks, token.kind = .newline) (nonempty : tokens ≠ []) :
    normalize (breaks ++ tokens) = normalize tokens := by
  have initial (last last' : Location) :
      run .initial last (breaks ++ tokens) = run .initial last' tokens := by
    induction breaks generalizing last with
    | nil => exact run_last nonempty ..
    | cons token breaks ih =>
        obtain ⟨isBreak, each⟩ := List.forall_mem_cons.mp each
        rw [List.cons_append, run_newline isBreak, paused_initial.endLine_eq]
        exact ih each _
  exact initial _ _

end Offside.Layout
