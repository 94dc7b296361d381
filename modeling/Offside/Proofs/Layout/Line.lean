import Offside.Layout

/-!
# Layout of a single line

Tokens without line breaks and semicolons are left as they are, unless the last one opens a block.
-/

namespace Offside.Layout

open Token (Kind)

/-- The tokens to which layout attaches no meaning. -/
def isPlain : Kind → Bool
  | .newline | .semicolon | .endOfFile => false
  | _ => true

theorem isPlain_spec {kind : Kind} (plain : isPlain kind) :
    kind ≠ .newline ∧ kind ≠ .semicolon ∧ kind ≠ .endOfFile := by
  cases kind <;> simp_all [isPlain]

/-- Token lists to which layout attaches no meaning, the columns apart. -/
def Plain (tokens : List Token) : Prop := ∀ token ∈ tokens, isPlain token.kind

@[simp]
theorem plain_nil : Plain [] := by simp [Plain]

@[simp]
theorem plain_cons (token : Token) (rest : List Token) :
    Plain (token :: rest) ↔ isPlain token.kind ∧ Plain rest :=
  List.forall_mem_cons

@[simp]
theorem plain_append (before after : List Token) :
    Plain (before ++ after) ↔ Plain before ∧ Plain after :=
  List.forall_mem_append

@[simp]
theorem plain_flatten (items : List (List Token)) :
    Plain items.flatten ↔ ∀ tokens ∈ items, Plain tokens := by
  simp only [Plain, List.mem_flatten]
  grind

/-- A state within a line outside of all blocks. -/
def State.InLine (state : State) : Prop :=
  state.opener = none ∧ state.columns.length ≤ 1 ∧ state.atLineStart = false

/-- The state after a plain token within a line. -/
def State.after (state : State) (token : Token) : State :=
  { state with
    depth := depthAfter state.depth token.kind
    previous := some token
    written := some token.kind }

theorem step_inLine {state : State} (inLine : state.InLine) {token : Token}
    (plain : isPlain token.kind) : step state token = .ok ([token], state.after token) := by
  have spec := isPlain_spec plain
  simp [step, spec, inLine.2.2, State.accept, State.after, bind, Except.bind, pure, Except.pure]

theorem run_inLine {state : State} (inLine : state.InLine) (last : Location) {tokens : List Token}
    (plain : Plain tokens) {endOfFile : Token}
    (isEnd : endOfFile.kind = .endOfFile)
    (closed : ∀ token, (state.previous.toList ++ tokens).getLast? = some token →
      opensBlock token.kind = false) :
    run state last (tokens ++ [endOfFile]) = .ok (tokens ++ [endOfFile]) := by
  induction tokens generalizing state last with
  | nil =>
      have noOpener : state.follows opensBlock = false := by
        cases previous : state.previous with
        | none => simp [State.follows, previous]
        | some token => simpa [State.follows, previous] using closed token (by simp [previous])
      have noBlock : state.columns.length - 1 = 0 := by
        have := inLine.2.1
        omega
      simp [run, isEnd, finish, inLine.1, noOpener, blockEnds, noBlock]
  | cons token rest ih =>
      rw [plain_cons] at plain
      have still : (state.after token).InLine := inLine
      have later := ih still token.location plain.2 (by
        intro final found
        refine closed final ?_
        cases rest with
        | nil => simpa [State.after] using found
        | cons second others => simpa [State.after, List.getLast?_append] using found)
      have notEnd := (isPlain_spec plain.1).2.2
      simp [run, notEnd, step_inLine inLine plain.1, later, bind, Except.bind, pure, Except.pure]

/-- Tokens without line breaks are their own layout. -/
theorem normalize_line {tokens : List Token} (plain : Plain tokens) {endOfFile : Token}
    (isEnd : endOfFile.kind = .endOfFile)
    (closed : ∀ token, tokens.getLast? = some token → opensBlock token.kind = false) :
    normalize (tokens ++ [endOfFile]) = .ok (tokens ++ [endOfFile]) := by
  cases tokens with
  | nil => simp [normalize, run, isEnd, finish, State.initial, State.follows, blockEnds]
  | cons token rest =>
      rw [plain_cons] at plain
      have spec := isPlain_spec plain.1
      let first : State :=
        { State.initial with columns := [token.location.column], atLineStart := false }
      have firstStep : step .initial token = .ok ([token], first.after token) := by
        simp [step, spec, State.initial, startLine, State.accept, State.after, first, bind,
          Except.bind, pure, Except.pure]
      have inLine : (first.after token).InLine := by simp [State.InLine, State.after, first,
        State.initial]
      have later := run_inLine inLine token.location plain.2 isEnd (by
        intro final found
        refine closed final ?_
        simpa [State.after] using found)
      simp [normalize, run, spec, firstStep, later, bind, Except.bind, pure, Except.pure]

end Offside.Layout
