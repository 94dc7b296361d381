import Offside.Proofs.Layout.Relocation

/-!
# Layout of a text after another one

A text that starts at the column of an earlier one closes the blocks of the earlier one like its end
of file does, and ends its last statement. After that its lines are laid out as if they stood alone.
-/

namespace Offside.Layout

open Token (Kind)

/-! ## Several steps -/

/-- Layout reads some tokens, writes others and goes from one state to another. -/
inductive Steps : State → List Token → List Token → State → Prop where
  | refl (state : State) : Steps state [] [] state
  | head {state middle after : State} {token : Token} {rest written later : List Token} :
      step state token = .ok (written, middle) → Steps middle rest later after →
      Steps state (token :: rest) (written ++ later) after

theorem exists_steps {state : State} {last : Location} {before rest output : List Token}
    (inner : ∀ token ∈ before, token.kind ≠ .endOfFile)
    (ran : run state last (before ++ rest) = .ok output) :
    ∃ written after last' later, Steps state before written after ∧
      run after last' rest = .ok later ∧ output = written ++ later := by
  induction before generalizing state last output with
  | nil => exact ⟨[], state, last, output, .refl state, ran, rfl⟩
  | cons token before ih =>
      obtain ⟨here, inner⟩ := List.forall_mem_cons.mp inner
      obtain ⟨first, middle, further, stepped, tail, rfl⟩ := (run_cons_eq_ok here).mp ran
      obtain ⟨written, after, last', later, steps, ended, rfl⟩ := ih inner tail
      exact ⟨first ++ written, after, last', later, .head stepped steps, ended,
        (List.append_assoc ..).symm⟩

theorem Steps.run {state after : State} {before written : List Token}
    (steps : Steps state before written after) (inner : ∀ token ∈ before, token.kind ≠ .endOfFile)
    {token : Token} {rest later : List Token}
    (ran : ∀ last, Layout.run after last (token :: rest) = .ok later) (last : Location) :
    Layout.run state last (before ++ token :: rest) = .ok (written ++ later) := by
  induction steps generalizing last with
  | refl => exact ran last
  | @head state middle after first before written later' stepped steps ih =>
      obtain ⟨here, inner⟩ := List.forall_mem_cons.mp inner
      exact (run_cons_eq_ok here).mpr
        ⟨written, middle, _, stepped, ih inner ran _, List.append_assoc ..⟩

/-- Block structure opens and closes no brackets. -/
theorem foldl_depthAfter_withoutLayout (depth : Nat) (tokens : List Token) :
    (tokens.map Token.kind).foldl depthAfter depth =
      ((withoutLayout tokens).map Token.kind).foldl depthAfter depth := by
  induction tokens generalizing depth with
  | nil => rfl
  | cons token rest ih =>
      by_cases isInserted : isLayout token.kind
      · have same : depthAfter depth token.kind = depth := by
          generalize token.kind = kind at isInserted
          cases kind <;> first | rfl | cases isInserted
        simpa [withoutLayout, isInserted, same] using ih depth
      · simpa [withoutLayout, isInserted] using ih (depthAfter depth token.kind)

/-- The tokens that layout drops open and close no brackets. -/
theorem depthAfter_of_isDropped {depth : Nat} {kind : Kind} (dropped : isDropped depth kind) :
    depthAfter depth kind = depth := by
  have kinds : kind = .newline ∨ kind = .semicolon := by
    simp only [isDropped, Bool.or_eq_true, Bool.and_eq_true, beq_iff_eq] at dropped
    exact dropped.imp_right And.left
  rcases kinds with rfl | rfl <;> rfl

theorem StepSpec.foldl_depthAfter {before after : State} {token : Token} {written : List Token}
    (spec : StepSpec before token written after) :
    (written.map Token.kind).foldl depthAfter before.depth = after.depth := by
  rw [foldl_depthAfter_withoutLayout, spec.kept, spec.depth]
  split
  case isTrue dropped => exact (depthAfter_of_isDropped dropped).symm
  case isFalse => rfl

/-- What several steps write, and the state that they leave. -/
structure StepsSpec (before : State) (tokens written : List Token) (after : State) : Prop where
  writes : Writes before written after
  sound : after.Sound
  kept : withoutLayout written = significant before.depth tokens
  depth : (written.map Token.kind).foldl depthAfter before.depth = after.depth

theorem Steps.spec {state after : State} {tokens written : List Token}
    (steps : Steps state tokens written after) (sound : state.Sound)
    (raw : ∀ token ∈ tokens, isLayout token.kind = false) :
    StepsSpec state tokens written after := by
  induction steps with
  | refl => exact ⟨⟨trivial, rfl, .nil _⟩, sound, rfl, rfl⟩
  | head stepped _ ih =>
      obtain ⟨here, raw⟩ := List.forall_mem_cons.mp raw
      have first := step_spec sound here stepped
      have later := ih first.sound raw
      refine ⟨first.writes.append later.writes, later.sound, ?_, ?_⟩
      · rw [withoutLayout_append, first.kept, later.kept, first.depth]
        rfl
      · rw [List.map_append, List.foldl_append, first.foldl_depthAfter, later.depth]

/-! ## The outermost column -/

/-- The outermost block of a state has a given column, and the others stand to the right of it. -/
def State.Aligned (column : Int) (state : State) : Prop :=
  ∃ inner, state.columns = inner ++ [column] ∧ ∀ reference ∈ inner, column < reference

/-- The innermost reference column. -/
theorem exists_reference {column : Int} {inner : List Int}
    (right : ∀ reference ∈ inner, column < reference) :
    ∃ reference outer, inner ++ [column] = reference :: outer ∧ column ≤ reference := by
  cases inner with
  | nil => exact ⟨column, [], rfl, Int.le_refl column⟩
  | cons reference inner =>
      exact ⟨reference, _, rfl, Int.le_of_lt (right reference List.mem_cons_self)⟩

theorem close_cons (column reference : Int) {outer : List Int} (nonempty : outer ≠ []) :
    close column (reference :: outer) =
      if column < reference then ((close column outer).1 + 1, (close column outer).2)
      else (0, reference :: outer) := by
  cases outer with
  | nil => exact absurd rfl nonempty
  | cons => rfl

theorem close_aligned (column outermost : Int) {inner : List Int}
    (right : ∀ reference ∈ inner, outermost < reference) :
    ∃ inner', (close column (inner ++ [outermost])).2 = inner' ++ [outermost] ∧
      ∀ reference ∈ inner', outermost < reference := by
  induction inner with
  | nil => exact ⟨[], rfl, nofun⟩
  | cons reference inner ih =>
      rw [List.cons_append, close_cons _ _ (by simp)]
      split
      · exact ih (List.forall_mem_cons.mp right).2
      · exact ⟨reference :: inner, rfl, right⟩

/-- At the outermost column all other blocks are closed. -/
theorem close_outermost (column : Int) {inner : List Int}
    (right : ∀ reference ∈ inner, column < reference) :
    close column (inner ++ [column]) = (inner.length, [column]) := by
  induction inner with
  | nil => rfl
  | cons reference inner ih =>
      obtain ⟨here, right⟩ := List.forall_mem_cons.mp right
      rw [List.cons_append, close_cons _ _ (by simp), if_pos here, ih right]
      rfl

namespace State.Aligned

variable {column : Int} {state after : State} {token : Token} {written : List Token}

theorem accept (aligned : state.Aligned column) (token : Token) :
    (state.accept token).2.Aligned column := by
  obtain ⟨inner, columns, right⟩ := aligned
  refine ⟨inner, ?_, right⟩
  unfold State.accept
  split
  · simpa using columns
  · exact columns

theorem enter (aligned : state.Aligned column)
    (ok : Layout.enter state token = .ok (written, after)) : after.Aligned column := by
  obtain ⟨inner, columns, right⟩ := aligned
  unfold Layout.enter at ok
  split at ok
  · have view := started { state with atLineStart := false } token
    rw [ok] at view
    cases view with
    | first none => simp [show state.columns = [] from none] at columns
    | @opened _ reference outer _ found further =>
        obtain ⟨_, _, split, atLeast⟩ := exists_reference right
        obtain ⟨rfl, rfl⟩ := List.cons.inj (found.symm.trans (columns.trans split))
        refine ⟨token.location.column :: inner, congrArg _ columns,
          List.forall_mem_cons.mpr ⟨?_, right⟩⟩
        omega
    | continued => exact ⟨inner, columns, right⟩
    | closed _ _ found =>
        obtain ⟨inner', closed, right'⟩ := close_aligned token.location.column column right
        subst found
        exact ⟨inner', (congrArg (fun columns => (close _ columns).2) columns).trans closed, right'⟩
  · obtain ⟨-, rfl⟩ := Prod.mk.inj (Except.ok.inj ok)
    exact ⟨inner, columns, right⟩

theorem step (aligned : state.Aligned column)
    (ok : Layout.step state token = .ok (written, after)) : after.Aligned column := by
  by_cases isBreak : token.kind = .newline
  · rw [step_newline isBreak] at ok
    obtain ⟨-, rfl⟩ := Prod.mk.inj (Except.ok.inj ok)
    exact aligned
  · obtain ⟨before, entered, found, -, rfl⟩ := exists_enter isBreak ok
    exact (aligned.enter found).accept token

theorem steps {tokens : List Token} (aligned : state.Aligned column)
    (steps : Steps state tokens written after) : after.Aligned column := by
  induction steps with
  | refl => exact aligned
  | head stepped _ ih => exact ih (aligned.step stepped)

end State.Aligned

/-! ## States that differ in what was written -/

/-- No change at all, so that related states differ in what was written last only. -/
def unchanged : Change where
  token := id
  move := id
  scale := id
  Fit _ := True
  Keeps _ := True
  kind _ := rfl
  location _ := rfl
  inserted _ _ := rfl
  column _ := rfl
  increasing less := less
  shown _ _ := rfl
  step _ _ _ := trivial

/-- Runs from states that layout cannot tell apart write the same. -/
theorem run_of_related {state state' : State} (related : unchanged.Related state state')
    {last : Location} {tokens output : List Token} (ran : run state last tokens = .ok output) :
    run state' last tokens = .ok output := by
  have same : run state' last (tokens.map id) = relocateOutcome id _ (run state last tokens) :=
    related.run (fun _ _ => trivial) trivial last
  rw [ran] at same
  simpa [unchanged, relocateOutcome] using same

/-! ## Going on after a line -/

/-- A state between two lines, outside of brackets and with no block to come. -/
structure State.Paused (state : State) : Prop where
  atLineStart : state.atLineStart = true
  depth : state.depth = 0
  opener : state.opener = none
  quiet : state.follows opensBlock = false

theorem paused_initial : State.initial.Paused := ⟨rfl, rfl, rfl, rfl⟩

theorem paused_endLine {state : State} (outside : state.depth = 0) (rests : state.awaiting = none) :
    state.endLine.Paused := by
  unfold State.awaiting at rests
  split at rests
  case h_1 => cases rests
  case h_2 waiting =>
    have quiet : state.follows opensBlock = false := by
      cases previous : state.previous with
      | none => simp [State.follows, previous]
      | some token => simpa [outside, previous] using rests
    exact ⟨rfl, outside, by simp [State.endLine, quiet, waiting], quiet⟩

namespace State.Paused

variable {state : State}

theorem endLine_eq (paused : state.Paused) : state.endLine = state := by
  obtain ⟨columns, depth, opener, previous, written, atStart⟩ := state
  obtain rfl : atStart = true := paused.atLineStart
  simp [State.endLine, paused.quiet]

theorem finish (paused : state.Paused) (endOfFile : Token) : Layout.finish state endOfFile =
    .ok (blockEnds (state.columns.length - 1) endOfFile.location ++ [endOfFile]) := by
  rw [finish_eq_match, State.awaiting, paused.opener]
  simp [paused.quiet]

end State.Paused

theorem blank_lastKind_separator (written : Option Kind) (location : Location) :
    Blank (lastKind written (separator written location)) := by
  intro place
  cases written with
  | none => rfl
  | some kind => cases kind <;> rfl

/-- A line at the outermost column closes all other blocks and ends a statement, unless its first
token goes on with it. -/
theorem startLine_outermost {column : Int} {state : State} (aligned : state.Aligned column)
    (ready : state.opener = none) {token : Token} (here : token.location.column = column)
    (starts : continuesLine token.kind = false ∨ token.kind = .minus) :
    let ends := blockEnds (state.columns.length - 1) token.location
    let more := separator (lastKind state.written ends) token.location
    startLine state token = .ok (ends ++ more,
      { state with
        columns := [column]
        written := lastKind (lastKind state.written ends) more }) := by
  obtain ⟨inner, columns, right⟩ := aligned
  have length : state.columns.length - 1 = inner.length := by simp [columns]
  have closed := close_outermost column right
  obtain ⟨reference, outer, split, atLeast⟩ := exists_reference right
  rw [split] at columns closed
  have goesOn : (!continuesLine token.kind || token.kind == .minus) = true := by
    rcases starts with none | isMinus
    · simp [none]
    · simp [isMinus]
  intro ends more
  simp only [startLine, columns, ready, here, if_neg (Int.not_lt.mpr atLeast), closed, goesOn]
  simp [ends, more, length, wrote_eq]

/-- The first token of a text sets the outermost column. -/
theorem enter_initial (token : Token) :
    enter .initial token = .ok ([], ⟨[token.location.column], 0, none, none, none, false⟩) := rfl

/-- The first token of a text after others is laid out as if the text stood alone, after what ends
the others. -/
theorem step_outermost {column : Int} {state after : State} (paused : state.Paused)
    (aligned : state.Aligned column) {token : Token} (inLine : token.kind ≠ .newline)
    (here : token.location.column = column)
    (starts : continuesLine token.kind = false ∨ token.kind = .minus) {written : List Token}
    (ok : step .initial token = .ok (written, after)) :
    let ends := blockEnds (state.columns.length - 1) token.location
    let more := separator (lastKind state.written ends) token.location
    ∃ after', step state token = .ok (ends ++ more ++ written, after') ∧
      unchanged.Related after after' := by
  intro ends more
  obtain ⟨before, entered, found, rfl, rfl⟩ := exists_enter inLine ok
  obtain ⟨rfl, rfl⟩ := Prod.mk.inj (Except.ok.inj (found.symm.trans (enter_initial token)))
  have started : enter state token = .ok (ends ++ more,
      { state with
        columns := [column]
        written := lastKind (lastKind state.written ends) more
        atLineStart := false }) := by
    have aligned : State.Aligned column { state with atLineStart := false } := aligned
    rw [enter, if_pos (by simp [paused.atLineStart, paused.depth]),
      startLine_outermost aligned paused.opener here starts]
  have related : unchanged.Related ⟨[token.location.column], 0, none, state.previous, none, false⟩
      { state with
        columns := [column]
        written := lastKind (lastKind state.written ends) more
        atLineStart := false } := by
    refine ⟨?_, .inr ⟨fun _ => rfl, blank_lastKind_separator _ _⟩⟩
    simp [paused.depth, paused.opener, here, unchanged, Change.state]
  obtain ⟨same, related⟩ := related.accept token
  refine ⟨_, ?_, related⟩
  rw [step_eq inLine, started, List.nil_append]
  change Except.ok (ends ++ more ++ _, _) = _
  rw [show (State.accept _ token).1 = _ from same, show unchanged.token = id from rfl, List.map_id]
  rfl

/-- What is laid out as `output` on its own is laid out so after what ends the text before it. -/
def Continues (state : State) (output : List Token) (outcome : Except Fault (List Token)) : Prop :=
  ∃ location more, outcome =
      .ok (blockEnds (state.columns.length - 1) location ++ more ++ output) ∧
    (more = separator (lastKind state.written (blockEnds (state.columns.length - 1) location))
        location ∨
      (more = [] ∧ ∃ endOfFile, output = [endOfFile] ∧ endOfFile.kind = .endOfFile))

/-- A text after others is laid out as if it stood alone, after what ends the others. -/
theorem run_outermost {column : Int} {state : State} (paused : state.Paused)
    (aligned : state.Aligned column) {last : Location} {tokens output : List Token}
    (ran : run .initial last tokens = .ok output)
    (starts : ∀ token, tokens.find? (·.kind != .newline) = some token → token.kind ≠ .endOfFile →
      token.location.column = column ∧
        (continuesLine token.kind = false ∨ token.kind = .minus)) :
    Continues state output (run state last tokens) := by
  have atEnd (endOfFile : Token) (isEnd : endOfFile.kind = .endOfFile) {output : List Token}
      (ended : finish .initial endOfFile = .ok output) :
      Continues state output (finish state endOfFile) := by
    obtain rfl : output = [endOfFile] := (Except.ok.inj ended).symm
    refine ⟨endOfFile.location, [], ?_, .inr ⟨rfl, endOfFile, rfl, isEnd⟩⟩
    rw [paused.finish, List.append_nil]
  induction tokens generalizing last output with
  | nil => exact atEnd _ rfl ran
  | cons token rest ih =>
      by_cases isEnd : token.kind = .endOfFile
      · rw [run_endOfFile isEnd] at ran ⊢
        exact atEnd token isEnd ran
      obtain ⟨written, after, later, stepped, tail, rfl⟩ := (run_cons_eq_ok isEnd).mp ran
      by_cases isBreak : token.kind = .newline
      · rw [step_newline isBreak, paused_initial.endLine_eq] at stepped
        obtain ⟨rfl, rfl⟩ := Prod.mk.inj (Except.ok.inj stepped)
        have skips : (token :: rest).find? (·.kind != .newline) = rest.find? (·.kind != .newline) :=
          List.find?_cons_of_neg (by simp [isBreak])
        rw [skips] at starts
        obtain ⟨location, more, ran', separates⟩ := ih tail starts
        refine ⟨location, more, (run_cons_eq_ok isEnd).mpr ⟨[], state, _, ?_, ran', rfl⟩, separates⟩
        rw [step_newline isBreak, paused.endLine_eq]
      · have first : (token :: rest).find? (·.kind != .newline) = some token :=
          List.find?_cons_of_pos (by simpa using isBreak)
        obtain ⟨here, goesOn⟩ := starts token first isEnd
        obtain ⟨after', stepped', related⟩ :=
          step_outermost paused aligned isBreak here goesOn stepped
        refine ⟨token.location, _, (run_cons_eq_ok isEnd).mpr
          ⟨_, after', later, stepped', run_of_related related tail, ?_⟩, .inl rfl⟩
        simp only [List.append_assoc]

/-! ## Two texts -/

/-- The layouts of a text and of a text after it, and how the latter goes on with its own layout. -/
inductive Joined (second : List Token) : List Token → List Token → Prop where
  /-- The first text has no statements. -/
  | nothing {endOfFile : Token} : endOfFile.kind = .endOfFile → Joined second [endOfFile] second
  /-- The end of a statement stands between the texts. -/
  | separated {written : List Token} {endOfFile : Token} (count : Nat)
      (location location' : Location) : (∀ token ∈ written, token.kind ≠ .endOfFile) →
      endOfFile.kind = .endOfFile →
      Joined second (written ++ (blockEnds count location ++ [endOfFile]))
        (written ++ (blockEnds count location' ++ .inserted .statementEnd location' :: second))
  /-- The first text ends its last statement itself. -/
  | ended {written : List Token} {separator endOfFile : Token} :
      (∀ token ∈ written, token.kind ≠ .endOfFile) → separator.kind = .statementEnd →
      endOfFile.kind = .endOfFile →
      Joined second (written ++ [separator, endOfFile]) (written ++ separator :: second)
  /-- The second text has no statements. -/
  | last {written : List Token} {endOfFile endOfFile' : Token} (count : Nat)
      (location location' : Location) : (∀ token ∈ written, token.kind ≠ .endOfFile) →
      endOfFile.kind = .endOfFile → endOfFile'.kind = .endOfFile → second = [endOfFile'] →
      Joined second (written ++ (blockEnds count location ++ [endOfFile]))
        (written ++ (blockEnds count location' ++ [endOfFile']))

/-- The column of the first token that is no line break. -/
def firstColumn? (tokens : List Token) : Option Int :=
  (tokens.find? (·.kind != .newline)).map (·.location.column)

theorem aligned_of_step_initial {token : Token} {written : List Token} {after : State}
    (inLine : token.kind ≠ .newline) (ok : step .initial token = .ok (written, after)) :
    after.Aligned token.location.column := by
  obtain ⟨before, entered, found, -, rfl⟩ := exists_enter inLine ok
  obtain ⟨-, rfl⟩ := Prod.mk.inj (Except.ok.inj (found.symm.trans (enter_initial token)))
  exact State.Aligned.accept ⟨[], rfl, nofun⟩ token

/-- The first token sets the outermost column. -/
theorem Steps.firstColumn {tokens written : List Token} {after : State}
    (steps : Steps .initial tokens written after) :
    (firstColumn? tokens = none ∧ after = .initial ∧ written = []) ∨
      ∃ column, firstColumn? tokens = some column ∧ after.Aligned column := by
  induction tokens generalizing written with
  | nil =>
      cases steps
      exact .inl ⟨rfl, rfl, rfl⟩
  | cons token rest ih =>
      cases steps with
      | head stepped steps =>
          by_cases isBreak : token.kind = .newline
          · rw [step_newline isBreak, paused_initial.endLine_eq] at stepped
            obtain ⟨rfl, rfl⟩ := Prod.mk.inj (Except.ok.inj stepped)
            have skips : firstColumn? (token :: rest) = firstColumn? rest := by
              rw [firstColumn?, List.find?_cons_of_neg (by simp [isBreak])]
              rfl
            rw [skips]
            exact ih steps
          · refine .inr ⟨token.location.column, ?_, ?_⟩
            · rw [firstColumn?, List.find?_cons_of_pos (by simpa using isBreak)]
              rfl
            · exact (aligned_of_step_initial isBreak stepped).steps steps

theorem mem_of_mem_significant {depth : Nat} {tokens : List Token} {token : Token}
    (member : token ∈ significant depth tokens) : token ∈ tokens := by
  induction tokens generalizing depth with
  | nil => exact member
  | cons first rest ih =>
      rw [significant] at member
      rcases List.mem_append.mp member with here | later
      · split at here
        · cases here
        · exact List.mem_cons.mpr (.inl (List.mem_singleton.mp here))
      · exact List.mem_cons_of_mem _ (ih later)

theorem StepsSpec.written_ne_endOfFile {state after : State} {tokens written : List Token}
    (spec : StepsSpec state tokens written after)
    (inner : ∀ token ∈ tokens, token.kind ≠ .endOfFile) :
    ∀ token ∈ written, token.kind ≠ .endOfFile := by
  intro token member isEnd
  have kept : token ∈ withoutLayout written :=
    List.mem_filter.mpr ⟨member, by rw [isEnd]; rfl⟩
  rw [spec.kept] at kept
  exact inner token (mem_of_mem_significant kept) isEnd

theorem mem_significant {depth : Nat} {tokens : List Token} {token : Token}
    (member : token ∈ tokens) (inLine : token.kind ≠ .newline) (other : token.kind ≠ .semicolon) :
    token ∈ significant depth tokens := by
  induction tokens generalizing depth with
  | nil => cases member
  | cons first rest ih =>
      rw [significant]
      rcases List.mem_cons.mp member with rfl | later
      · simp [isDropped, inLine, other]
      · exact List.mem_append_right _ (ih later)

/-- The layout of a text ends at the end of file, and it keeps what is not layout. -/
theorem exists_written {before output : List Token} {endOfFile : Token}
    (raw : ∀ token ∈ before, isLayout token.kind = false)
    (inner : ∀ token ∈ before, token.kind ≠ .endOfFile) (isEnd : endOfFile.kind = .endOfFile)
    (ran : normalize (before ++ [endOfFile]) = .ok output) :
    ∃ written, output = written ++ [endOfFile] ∧ (∀ token ∈ written, token.kind ≠ .endOfFile) ∧
      withoutLayout written = significant 0 before := by
  obtain ⟨written, after, last, later, steps, ended, rfl⟩ := exists_steps inner ran
  rw [run_endOfFile isEnd] at ended
  have spec := steps.spec sound_initial raw
  obtain rfl := finish_eq ended
  refine ⟨written ++ blockEnds (after.columns.length - 1) endOfFile.location,
    (List.append_assoc ..).symm, ?_, ?_⟩
  · exact List.forall_mem_append.mpr ⟨spec.written_ne_endOfFile inner, by
      simp [blockEnds, Token.inserted]⟩
  · rw [withoutLayout_append, withoutLayout_eq_nil (isLayout_blockEnds _ _), List.append_nil]
    exact spec.kept

/-- The first token of a text is written first, unless it is a semicolon. -/
theorem head_run_initial {tokens output : List Token} {token : Token} {last : Location}
    (first : tokens.find? (·.kind != .newline) = some token) (inner : token.kind ≠ .endOfFile)
    (other : token.kind ≠ .semicolon) (ran : run .initial last tokens = .ok output) :
    output.head? = some token := by
  induction tokens generalizing last output with
  | nil => cases first
  | cons head rest ih =>
      by_cases isBreak : head.kind = .newline
      · rw [List.find?_cons_of_neg (by simp [isBreak])] at first
        obtain ⟨written, after, later, stepped, ran, rfl⟩ :=
          (run_cons_eq_ok (by simp [isBreak])).mp ran
        rw [step_newline isBreak, paused_initial.endLine_eq] at stepped
        obtain ⟨rfl, rfl⟩ := Prod.mk.inj (Except.ok.inj stepped)
        exact ih first ran
      · rw [List.find?_cons_of_pos (by simpa using isBreak)] at first
        obtain rfl := Option.some.inj first
        obtain ⟨written, after, later, stepped, -, rfl⟩ := (run_cons_eq_ok inner).mp ran
        obtain ⟨before, entered, found, rfl, -⟩ := exists_enter isBreak stepped
        obtain ⟨rfl, rfl⟩ := Prod.mk.inj (Except.ok.inj (found.symm.trans (enter_initial head)))
        simp [State.accept, other]

/-- A block that has just been started is open. -/
theorem Nested.pos_of_blockStart {before after : Nat} {tokens : List Token} {token : Token}
    (nested : Nested before (tokens ++ [token]) after) (isStart : token.kind = .blockStart) :
    0 < after := by
  have closed := nested.closed tokens (List.prefix_append ..)
  have total := nested.total
  simp only [starts, ends, List.countP_append] at closed total
  simp [isStart] at total
  omega

theorem run_last {tokens : List Token} (nonempty : tokens ≠ []) (state : State)
    (last last' : Location) : run state last tokens = run state last' tokens := by
  cases tokens with
  | nil => exact absurd rfl nonempty
  | cons token rest => rfl

theorem awaiting_of_finish {state : State} {endOfFile : Token} {output : List Token}
    (ok : finish state endOfFile = .ok output) : state.awaiting = none := by
  rw [finish_eq_match] at ok
  cases waits : state.awaiting with
  | none => rfl
  | some opener =>
      rw [waits] at ok
      cases ok

theorem lastKind_blockEnds_succ (written : Option Kind) (count : Nat) (location : Location) :
    lastKind written (blockEnds (count + 1) location) = some .blockEnd := by
  rw [lastKind_eq, blockEnds, List.getLast?_replicate]
  rfl

theorem separator_of_ne {kind : Kind} (notEnd : kind ≠ .statementEnd)
    (notStart : kind ≠ .blockStart) (location : Location) :
    separator (some kind) location = [.inserted .statementEnd location] := by
  cases kind <;> first | rfl | exact absurd rfl notEnd | exact absurd rfl notStart

/-- What stands between the texts, if the second one has a token. -/
theorem joined_separator {before written second : List Token} {after : State}
    (spec : StepsSpec .initial before written after)
    (inner : ∀ token ∈ written, token.kind ≠ .endOfFile) {endOfFile : Token}
    (isEnd : endOfFile.kind = .endOfFile) (location location' : Location) :
    Joined second
      (written ++ (blockEnds (after.columns.length - 1) location ++ [endOfFile]))
      (written ++ (blockEnds (after.columns.length - 1) location' ++
        separator (lastKind after.written (blockEnds (after.columns.length - 1) location'))
          location' ++ second)) := by
  have nested := spec.writes.nested
  have last := spec.writes.last
  generalize after.columns.length - 1 = count at nested
  rw [last]
  cases count with
  | succ count =>
      rw [lastKind_blockEnds_succ]
      simpa [separator] using Joined.separated (count + 1) location location' inner isEnd
  | zero =>
      rcases List.eq_nil_or_concat' written with rfl | ⟨init, final, rfl⟩
      · exact .nothing isEnd
      have kind : lastKind (lastKind State.initial.written (init ++ [final]))
          (blockEnds 0 location') = some final.kind := by
        rw [lastKind_append]
        rfl
      rw [kind]
      by_cases separates : final.kind = .statementEnd
      · have earlier : ∀ token ∈ init, token.kind ≠ .endOfFile := fun token member =>
          inner token (List.mem_append_left _ member)
        simpa [separates, separator, blockEnds] using Joined.ended earlier separates isEnd
      · have other : final.kind ≠ .blockStart := fun isStart =>
          absurd (nested.pos_of_blockStart isStart) (Nat.lt_irrefl 0)
        rw [separator_of_ne separates other]
        simpa using Joined.separated 0 location location' inner isEnd

/-- A text at the column of another one is laid out after it as it is alone. -/
theorem normalize_joined {before tokens first second : List Token} {endOfFile newline : Token}
    (raw : ∀ token ∈ before, isLayout token.kind = false)
    (inner : ∀ token ∈ before, token.kind ≠ .endOfFile) (isEnd : endOfFile.kind = .endOfFile)
    (isBreak : newline.kind = .newline) (nonempty : tokens ≠ [])
    (ran : normalize (before ++ [endOfFile]) = .ok first) (ran' : normalize tokens = .ok second)
    (balanced : (first.map Token.kind).foldl depthAfter 0 = 0)
    (starts : ∀ column, firstColumn? before = some column →
      ∀ token, tokens.find? (·.kind != .newline) = some token → token.kind ≠ .endOfFile →
        token.location.column = column ∧
          (continuesLine token.kind = false ∨ token.kind = .minus)) :
    ∃ whole, normalize (before ++ newline :: tokens) = .ok whole ∧ Joined second first whole := by
  obtain ⟨written, after, last, later, steps, ended, rfl⟩ := exists_steps inner ran
  rw [run_endOfFile isEnd] at ended
  have spec := steps.spec sound_initial raw
  have rests := awaiting_of_finish ended
  have outside : after.depth = 0 := by
    have depth : (written.map Token.kind).foldl depthAfter 0 = after.depth := spec.depth
    rwa [List.map_append, List.foldl_append, depth, foldl_depthAfter_withoutLayout,
      (finish_spec isEnd ended).2.2, List.map_singleton, isEnd] at balanced
  obtain rfl := finish_eq ended
  have paused := paused_endLine outside rests
  have resumes {output : List Token}
      (ran : run after.endLine newline.location tokens = .ok output) :
      normalize (before ++ newline :: tokens) = .ok (written ++ output) :=
    steps.run inner (fun last => (run_cons_eq_ok (by simp [isBreak])).mpr
      ⟨[], after.endLine, output, step_newline isBreak after, ran, rfl⟩) _
  rw [normalize, run_last nonempty _ _ newline.location] at ran'
  rcases steps.firstColumn with ⟨-, rfl, rfl⟩ | ⟨column, found, aligned⟩
  · exact ⟨second, resumes ran', .nothing isEnd⟩
  · obtain ⟨location, more, ran', separates⟩ :=
      run_outermost paused aligned ran' (starts column found)
    refine ⟨_, resumes ran', ?_⟩
    have written_ne := spec.written_ne_endOfFile inner
    rcases separates with rfl | ⟨rfl, endOfFile', rfl, isEnd'⟩
    · exact joined_separator spec written_ne isEnd _ _
    · rw [List.append_nil]
      exact .last _ _ location written_ne isEnd isEnd' rfl

end Offside.Layout
